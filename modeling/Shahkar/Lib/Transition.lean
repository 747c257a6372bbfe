import Mathlib.Logic.Basic

/-!
# Guarded runs of an executable transition system

A system is a partial step function `step : S → A → Option S`; a *guard* `ok : S → A → Prop`,
evaluated in the state *before* the step, restricts which steps a run may take.
-/

namespace Shahkar.Lib

universe u v

variable {S : Type u} {A : Type v}

inductive Run (step : S → A → Option S) (ok : S → A → Prop) (s₀ : S) : S → Prop
  | init : Run step ok s₀ s₀
  | next {s s' : S} {a : A} : Run step ok s₀ s → ok s a → step s a = some s' →
      Run step ok s₀ s'

def execGuarded (step : S → A → Option S) (ok : S → A → Prop) [∀ s a, Decidable (ok s a)] :
    S → List A → Option S
  | s, [] => some s
  | s, a :: rest =>
    if ok s a then (step s a).bind (fun s' => execGuarded step ok s' rest) else none

namespace Run

variable {step : S → A → Option S} {ok ok' : S → A → Prop} {s₀ s : S}

theorem invariant (Inv : S → Prop) (hinit : Inv s₀)
    (hstep : ∀ {s s' a}, Inv s → ok s a → step s a = some s' → Inv s')
    (h : Run step ok s₀ s) : Inv s := by
  induction h with
  | init => exact hinit
  | next _ hok hs ih => exact hstep ih hok hs

theorem mono (himp : ∀ s a, ok s a → ok' s a) (h : Run step ok s₀ s) :
    Run step ok' s₀ s := by
  induction h with
  | init => exact .init
  | next _ hok hs ih => exact .next ih (himp _ _ hok) hs

theorem trans {s₁ : S} (h₁ : Run step ok s₀ s₁) (h₂ : Run step ok s₁ s) :
    Run step ok s₀ s := by
  induction h₂ with
  | init => exact h₁
  | next _ hok hs ih => exact .next ih hok hs

theorem of_execGuarded [∀ s a, Decidable (ok s a)] :
    ∀ (acts : List A) {s₀ s : S}, execGuarded step ok s₀ acts = some s → Run step ok s₀ s
  | [], _, _, h => by
      rw [execGuarded, Option.some.injEq] at h
      exact h ▸ .init
  | a :: rest, s₀, s, h => by
      rw [execGuarded] at h
      split at h
      · rename_i hok
        obtain ⟨s₁, hs₁, hrest⟩ := Option.bind_eq_some_iff.mp h
        exact trans (.next .init hok hs₁) (of_execGuarded rest hrest)
      · cases h

end Run

end Shahkar.Lib
