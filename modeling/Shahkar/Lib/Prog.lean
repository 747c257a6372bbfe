import Mathlib.Data.List.Basic

/-!
# Programs that talk to a database through a session

The writes of a `Prog` are buffered and reach the database together at the next commit, its reads
see committed rows only, and a commit fails as a whole if one of its writes violates a constraint.
-/

namespace Shahkar.Lib

inductive Prog (D R W E α : Type) : Type
  | ret (a : α)
  | raise (e : E)
  | read (rs : List R) (k : D → Prog D R W E α)
  | lock (r : R) (k : D → Prog D R W E α)
  | fresh (k : Nat → Prog D R W E α)
  | write (w : W) (k : Prog D R W E α)
  | commit (failed k : Prog D R W E α)
  | rollback (k : Prog D R W E α)

namespace Prog

variable {D R W E α β : Type}

def bind : Prog D R W E α → (α → Prog D R W E β) → Prog D R W E β
  | .ret a, f => f a
  | .raise e, _ => .raise e
  | .read rs k, f => .read rs fun d => (k d).bind f
  | .lock r k, f => .lock r fun d => (k d).bind f
  | .fresh k, f => .fresh fun n => (k n).bind f
  | .write w k, f => .write w (k.bind f)
  | .commit failed k, f => .commit (failed.bind f) (k.bind f)
  | .rollback k, f => .rollback (k.bind f)

instance : Monad (Prog D R W E) where
  pure := .ret
  bind := bind

def tryCatch : Prog D R W E α → (E → Prog D R W E α) → Prog D R W E α
  | .ret a, _ => .ret a
  | .raise e, h => h e
  | .read rs k, h => .read rs fun d => (k d).tryCatch h
  | .lock r k, h => .lock r fun d => (k d).tryCatch h
  | .fresh k, h => .fresh fun n => (k n).tryCatch h
  | .write w k, h => .write w (k.tryCatch h)
  | .commit failed k, h => .commit (failed.tryCatch h) (k.tryCatch h)
  | .rollback k, h => .rollback (k.tryCatch h)

def query (f : D → α) : Prog D R W E α := .read [] fun d => .ret (f d)

def fetch (r : R) (f : D → α) : Prog D R W E α := .read [r] fun d => .ret (f d)

def fetchForUpdate (r : R) (f : D → α) : Prog D R W E α := .lock r fun d => .ret (f d)

def freshKey : Prog D R W E Nat := .fresh .ret

def emit (w : W) : Prog D R W E Unit := .write w (.ret ())

def commitOr (e : E) : Prog D R W E Unit := .commit (.raise e) (.ret ())

def each (f : α → Prog D R W E β) : List α → Prog D R W E (List β)
  | [] => .ret []
  | a :: rest => do
    let b ← f a
    let bs ← each f rest
    return b :: bs

def finished : Prog D R W E α → Bool
  | .ret _ | .raise _ => true
  | _ => false

def Confined (P : W → Prop) (A L : R → Prop) : Prog D R W E α → Prop
  | .ret _ | .raise _ => True
  | .read rs k => (∀ r ∈ rs, A r) ∧ ∀ d, (k d).Confined P A L
  | .lock r k => L r ∧ ∀ d, (k d).Confined P A L
  | .fresh k => ∀ n, (k n).Confined P A L
  | .write w k => P w ∧ k.Confined P A L
  | .commit failed k => failed.Confined P A L ∧ k.Confined P A L
  | .rollback k => k.Confined P A L

section Confined

variable {P : W → Prop} {A L : R → Prop}

@[simp] theorem confined_pure (a : α) : (pure a : Prog D R W E α).Confined P A L := trivial

@[simp] theorem confined_raise (e : E) : (.raise e : Prog D R W E α).Confined P A L := trivial

variable {f : α → Prog D R W E β}

@[simp] theorem confined_bind :
    ∀ {p : Prog D R W E α}, p.Confined P A L → (∀ a, (f a).Confined P A L) →
      (p >>= f).Confined P A L
  | .ret a, _, hf => hf a
  | .raise _, _, _ => trivial
  | .read _ _, hp, hf => ⟨hp.1, fun d => confined_bind (hp.2 d) hf⟩
  | .lock _ _, hp, hf => ⟨hp.1, fun d => confined_bind (hp.2 d) hf⟩
  | .fresh _, hp, hf => fun n => confined_bind (hp n) hf
  | .write _ _, hp, hf => ⟨hp.1, confined_bind hp.2 hf⟩
  | .commit _ _, hp, hf => ⟨confined_bind hp.1 hf, confined_bind hp.2 hf⟩
  | .rollback k, hp, hf => confined_bind (p := k) hp hf

@[simp] theorem confined_tryCatch {h : E → Prog D R W E α} :
    ∀ {p : Prog D R W E α}, p.Confined P A L → (∀ e, (h e).Confined P A L) →
      (p.tryCatch h).Confined P A L
  | .ret _, _, _ => trivial
  | .raise e, _, hh => hh e
  | .read _ _, hp, hh => ⟨hp.1, fun d => confined_tryCatch (hp.2 d) hh⟩
  | .lock _ _, hp, hh => ⟨hp.1, fun d => confined_tryCatch (hp.2 d) hh⟩
  | .fresh _, hp, hh => fun n => confined_tryCatch (hp n) hh
  | .write _ _, hp, hh => ⟨hp.1, confined_tryCatch hp.2 hh⟩
  | .commit _ _, hp, hh => ⟨confined_tryCatch hp.1 hh, confined_tryCatch hp.2 hh⟩
  | .rollback k, hp, hh => confined_tryCatch (p := k) hp hh

@[simp] theorem confined_query (f : D → α) : (query f : Prog D R W E α).Confined P A L :=
  ⟨fun _ hr => absurd hr List.not_mem_nil, fun _ => trivial⟩

theorem confined_query_bind {f : D → α} {k : α → Prog D R W E β}
    (h : ∀ d, (k (f d)).Confined P A L) : (query f >>= k).Confined P A L :=
  ⟨fun _ hr => absurd hr List.not_mem_nil, h⟩

@[simp] theorem confined_fetch {r : R} {f : D → α} :
    (fetch r f : Prog D R W E α).Confined P A L ↔ A r := by
  simp [fetch, Confined]

@[simp] theorem confined_freshKey : (freshKey : Prog D R W E Nat).Confined P A L := fun _ => trivial

@[simp] theorem confined_emit {w : W} : (emit w : Prog D R W E Unit).Confined P A L ↔ P w := by
  simp [emit, Confined]

@[simp] theorem confined_commitOr (e : E) :
    (commitOr e : Prog D R W E Unit).Confined P A L := ⟨trivial, trivial⟩

@[simp] theorem confined_each {l : List α}
    (h : ∀ a ∈ l, (f a).Confined P A L) : (each f l).Confined P A L := by
  induction l with
  | nil => exact trivial
  | cons a rest ih =>
    refine confined_bind (h a List.mem_cons_self) fun b => confined_bind (ih ?_) fun _ => trivial
    exact fun a' ha' => h a' (List.mem_cons_of_mem _ ha')

end Confined

theorem confined_trivial : ∀ p : Prog D R W E α,
    p.Confined (fun _ => True) (fun _ => True) fun _ => True
  | .ret _ | .raise _ => trivial
  | .read _ k => ⟨fun _ _ => trivial, fun d => confined_trivial (k d)⟩
  | .lock _ k => ⟨trivial, fun d => confined_trivial (k d)⟩
  | .fresh k => fun n => confined_trivial (k n)
  | .write _ k => ⟨trivial, confined_trivial k⟩
  | .commit failed k => ⟨confined_trivial failed, confined_trivial k⟩
  | .rollback k => confined_trivial k

structure Compositional (Φ : (α : Type) → Prog D R W E α → Prop) : Prop where
  pure : ∀ {α} (a : α), Φ α (pure a)
  raise : ∀ {α} (e : E), Φ α (.raise e)
  query : ∀ {α} (f : D → α), Φ α (query f)
  bind : ∀ {α β} {p : Prog D R W E α} {f : α → Prog D R W E β},
    Φ α p → (∀ a, Φ β (f a)) → Φ β (p >>= f)
  tryCatch : ∀ {α} {p : Prog D R W E α} {h : E → Prog D R W E α},
    Φ α p → (∀ e, Φ α (h e)) → Φ α (p.tryCatch h)

namespace Compositional

variable {Φ : (α : Type) → Prog D R W E α → Prop}

theorem ite (_ : Compositional Φ) {c : Prop} [Decidable c] {p q : Prog D R W E α} (hp : Φ α p)
    (hq : Φ α q) : Φ α (if c then p else q) := by
  split
  · exact hp
  · exact hq

theorem each (hΦ : Compositional Φ) {f : α → Prog D R W E β} {l : List α}
    (hf : ∀ a, Φ β (f a)) : Φ (List β) (each f l) := by
  induction l with
  | nil => exact hΦ.pure []
  | cons a rest ih => exact hΦ.bind (hf a) fun _ => hΦ.bind ih fun _ => hΦ.pure _

end Compositional

theorem compositional_confined {P : W → Prop} {A L : R → Prop} :
    Compositional fun α (p : Prog D R W E α) => p.Confined P A L where
  pure := confined_pure
  raise := confined_raise
  query := confined_query
  bind := confined_bind
  tryCatch := confined_tryCatch

def Returns (Q : α → Prop) : Prog D R W E α → Prop
  | .ret a => Q a
  | .raise _ => True
  | .read _ k | .lock _ k => ∀ d, (k d).Returns Q
  | .fresh k => ∀ n, (k n).Returns Q
  | .write _ k | .rollback k => k.Returns Q
  | .commit failed k => failed.Returns Q ∧ k.Returns Q

theorem Returns.bind {Q : β → Prop} {Q' : α → Prop} {f : α → Prog D R W E β} :
    ∀ {p : Prog D R W E α}, p.Returns Q' → (∀ a, Q' a → (f a).Returns Q) → (p >>= f).Returns Q
  | .ret a, hp, hf => hf a hp
  | .raise _, _, _ => trivial
  | .read _ k, hp, hf => fun d => Returns.bind (p := k d) (hp d) hf
  | .lock _ k, hp, hf => fun d => Returns.bind (p := k d) (hp d) hf
  | .fresh k, hp, hf => fun n => Returns.bind (p := k n) (hp n) hf
  | .write _ k, hp, hf => Returns.bind (p := k) hp hf
  | .rollback k, hp, hf => Returns.bind (p := k) hp hf
  | .commit failed k, hp, hf =>
    ⟨Returns.bind (p := failed) hp.1 hf, Returns.bind (p := k) hp.2 hf⟩

theorem returns_true : ∀ p : Prog D R W E α, p.Returns fun _ => True
  | .ret _ | .raise _ => trivial
  | .read _ k | .lock _ k => fun d => returns_true (k d)
  | .fresh k => fun n => returns_true (k n)
  | .write _ k | .rollback k => returns_true k
  | .commit failed k => ⟨returns_true failed, returns_true k⟩

theorem returns_each (f : α → Prog D R W E β) (l : List α) :
    (each f l).Returns fun bs => bs.length = l.length := by
  induction l with
  | nil => exact rfl
  | cons a rest ih =>
    exact Returns.bind (returns_true (f a)) fun b _ => Returns.bind ih fun bs hbs =>
      congrArg (· + 1) hbs

end Prog

structure Store (D R V W : Type) where
  row : D → R → V
  touched : W → List R
  apply : W → D → Option D
  frame : ∀ {w : W} {d d' : D}, apply w d = some d' → ∀ r, r ∉ touched w → row d' r = row d r

namespace Store

variable {D R V W : Type} (S : Store D R V W)

def applyAll : List W → D → Option D
  | [], d => some d
  | w :: rest, d => (S.apply w d).bind (applyAll rest)

@[simp] theorem applyAll_nil (d : D) : S.applyAll [] d = some d := rfl

@[simp] theorem applyAll_cons (w : W) (rest : List W) (d : D) :
    S.applyAll (w :: rest) d = (S.apply w d).bind (S.applyAll rest) := rfl

theorem applyAll_append (ws₁ ws₂ : List W) (d : D) :
    S.applyAll (ws₁ ++ ws₂) d = (S.applyAll ws₁ d).bind (S.applyAll ws₂) := by
  induction ws₁ generalizing d with
  | nil => rfl
  | cons w rest ih =>
    rw [List.cons_append, applyAll_cons, applyAll_cons, Option.bind_assoc]
    exact congrArg _ (funext ih)

variable {ws : List W} {d d' : D}

theorem applyAll_induction {P : D → Prop} (h : ∀ w ∈ ws, ∀ d d', S.apply w d = some d' → P d → P d')
    (happly : S.applyAll ws d = some d') (hd : P d) : P d' := by
  induction ws generalizing d with
  | nil => exact Option.some.inj happly ▸ hd
  | cons w rest ih =>
    obtain ⟨d₁, hw, hrest⟩ := Option.bind_eq_some_iff.mp happly
    refine ih (fun w' hw' => h w' (List.mem_cons_of_mem _ hw')) hrest ?_
    exact h w List.mem_cons_self d d₁ hw hd

theorem isSome_applyAll (h : ∀ w ∈ ws, ∀ d, (S.apply w d).isSome) (d : D) :
    (S.applyAll ws d).isSome := by
  induction ws generalizing d with
  | nil => rfl
  | cons w rest ih =>
    obtain ⟨d₁, hw⟩ := Option.isSome_iff_exists.mp (h w List.mem_cons_self d)
    rw [applyAll_cons, hw]
    exact ih (fun w' hw' => h w' (List.mem_cons_of_mem _ hw')) d₁

theorem view_applyAll {β : Type} (view : D → β) (act : W → β → β)
    (h : ∀ {w d d'}, S.apply w d = some d' → view d' = act w (view d))
    (happly : S.applyAll ws d = some d') :
    view d' = ws.foldl (fun v w => act w v) (view d) := by
  induction ws generalizing d with
  | nil => exact congrArg view (Option.some.inj happly).symm
  | cons w rest ih =>
    obtain ⟨d₁, hw, hrest⟩ := Option.bind_eq_some_iff.mp happly
    rw [ih hrest, h hw, List.foldl_cons]

def touchedBy (ws : List W) : List R := ws.flatMap S.touched

theorem row_applyAll (h : S.applyAll ws d = some d') {r : R}
    (hr : r ∉ S.touchedBy ws) : S.row d' r = S.row d r := by
  refine S.applyAll_induction (P := fun d₁ => S.row d₁ r = S.row d r) ?_ h rfl
  intro w hw d₁ d₂ happly hd₁
  rw [S.frame happly r fun hmem => hr (List.mem_flatMap.mpr ⟨w, hw, hmem⟩), hd₁]

end Store

end Shahkar.Lib
