import Mathlib.Tactic.Simps.Basic
import Shahkar.Lib.Prog

/-!
# A program that is alone with the database

`Prog.exec` runs it to its result; `Prog.alone` is the weakest precondition of such a run for a
postcondition and an assertion about every state the run commits on its way.
-/

namespace Shahkar.Lib

structure Exec (D W : Type) where
  db : D
  next : Nat
  pend : List W := []
  log : List W := []

namespace Exec

variable {D W : Type} (s : Exec D W)

@[simps] def push (w : W) : Exec D W := { s with pend := s.pend ++ [w] }

@[simps] def rolledBack : Exec D W := { s with pend := [] }

@[simps] def committed (d : D) : Exec D W := { s with db := d, pend := [], log := s.log ++ s.pend }

@[simps] def advanced : Exec D W := { s with next := s.next + 1 }

end Exec

namespace Prog

variable {D R V W E α β : Type} (S : Store D R V W)

def exec : Prog D R W E α → Exec D W → Except E α × Exec D W
  | .ret a, s => (.ok a, s)
  | .raise e, s => (.error e, s)
  | .read _ k, s => (k s.db).exec s
  | .lock _ k, s => (k s.db).exec s
  | .fresh k, s => (k s.next).exec s.advanced
  | .write w k, s => k.exec (s.push w)
  | .commit failed k, s =>
    match S.applyAll s.pend s.db with
    | some d => k.exec (s.committed d)
    | none => failed.exec s.rolledBack
  | .rollback k, s => k.exec s.rolledBack

def alone (I : D → List W → Prop) :
    Prog D R W E α → Exec D W → (Except E α → Exec D W → Prop) → Prop
  | .ret a, s, post => post (.ok a) s
  | .raise e, s, post => post (.error e) s
  | .read _ k, s, post => alone I (k s.db) s post
  | .lock _ k, s, post => alone I (k s.db) s post
  | .fresh k, s, post => alone I (k s.next) s.advanced post
  | .write w k, s, post => alone I k (s.push w) post
  | .commit failed k, s, post =>
    match S.applyAll s.pend s.db with
    | some d => I d (s.log ++ s.pend) ∧ alone I k (s.committed d) post
    | none => alone I failed s.rolledBack post
  | .rollback k, s, post => alone I k s.rolledBack post

variable {S} {I I' : D → List W → Prop} {s : Exec D W} {post post' : Except E α → Exec D W → Prop}
  {p : Prog D R W E α} {f : α → Prog D R W E β} {h : E → Prog D R W E α}

theorem alone_iff : p.alone S I s post ↔
    p.alone S I s (fun _ _ => True) ∧ post (p.exec S s).1 (p.exec S s).2 := by
  induction p generalizing s with
  | ret a | raise e => exact ⟨fun h => ⟨trivial, h⟩, And.right⟩
  | read rs k ih | lock r k ih => exact ih _
  | fresh k ih => exact ih _
  | write w k ih | rollback k ih => exact ih
  | commit failed k ihf ihk =>
    rw [alone, alone, exec]
    split
    · rw [ihk, and_assoc]
    · exact ihf

theorem exec_of_alone (h : p.alone S I s post) :
    post (p.exec S s).1 (p.exec S s).2 := (alone_iff.mp h).2

theorem alone_exec (h : p.alone S I s post) :
    p.alone S I s fun x s' => post x s' ∧ p.exec S s = (x, s') :=
  alone_iff.mpr ⟨(alone_iff.mp h).1, exec_of_alone h, rfl⟩

theorem alone_imp (hI : ∀ d l, I d l → I' d l) (hpost : ∀ x s', post x s' → post' x s') :
    ∀ {p : Prog D R W E α} {s : Exec D W}, p.alone S I s post → p.alone S I' s post'
  | .ret a, s, h => hpost _ _ h
  | .raise e, s, h => hpost _ _ h
  | .read rs k, s, h => alone_imp hI hpost (p := k s.db) h
  | .lock r k, s, h => alone_imp hI hpost (p := k s.db) h
  | .fresh k, s, h => alone_imp hI hpost (p := k s.next) h
  | .write w k, s, h => alone_imp hI hpost (p := k) h
  | .commit failed k, s, h => by
      rw [alone] at h ⊢
      split at h
      · exact ⟨hI _ _ h.1, alone_imp hI hpost (p := k) h.2⟩
      · exact alone_imp hI hpost (p := failed) h
  | .rollback k, s, h => alone_imp hI hpost (p := k) h

theorem alone_mono (hpost : ∀ x s', post x s' → post' x s') (h : p.alone S I s post) :
    p.alone S I s post' := alone_imp (fun _ _ => id) hpost h

theorem alone_and (h : p.alone S I s post) (h' : p.alone S I s post') :
    p.alone S I s fun x s' => post x s' ∧ post' x s' :=
  alone_iff.mpr ⟨(alone_iff.mp h).1, exec_of_alone h, exec_of_alone h'⟩

def aloneThen (S : Store D R V W) (I : D → List W → Prop) (f : α → Prog D R W E β)
    (post : Except E β → Exec D W → Prop) : Except E α → Exec D W → Prop
  | .ok a, s => (f a).alone S I s post
  | .error e, s => post (.error e) s

def aloneElse (S : Store D R V W) (I : D → List W → Prop) (h : E → Prog D R W E α)
    (post : Except E α → Exec D W → Prop) : Except E α → Exec D W → Prop
  | .ok a, s => post (.ok a) s
  | .error e, s => (h e).alone S I s post

variable {e : E} {a : α}

@[simp] theorem aloneThen_ok {post : Except E β → Exec D W → Prop} :
    aloneThen S I f post (.ok a) s = (f a).alone S I s post := rfl

@[simp] theorem aloneThen_error {post : Except E β → Exec D W → Prop} :
    aloneThen S I f post (.error e) s = post (.error e) s := rfl

@[simp] theorem aloneElse_ok : aloneElse S I h post (.ok a) s = post (.ok a) s := rfl

@[simp] theorem aloneElse_error :
    aloneElse S I h post (.error e) s = (h e).alone S I s post := rfl

@[simp] theorem alone_bind {post : Except E β → Exec D W → Prop} :
    (p >>= f).alone S I s post ↔ p.alone S I s (aloneThen S I f post) := by
  change (p.bind f).alone S I s post ↔ _
  induction p generalizing s with
  | ret a | raise e => exact .rfl
  | read rs k ih | lock r k ih => exact ih _
  | fresh k ih => exact ih _
  | write w k ih | rollback k ih => exact ih
  | commit failed k ihf ihk =>
    rw [bind, alone, alone]
    split
    · exact and_congr_right fun _ => ihk
    · exact ihf

@[simp] theorem alone_tryCatch :
    (p.tryCatch h).alone S I s post ↔ p.alone S I s (aloneElse S I h post) := by
  induction p generalizing s with
  | ret a | raise e => exact .rfl
  | read rs k ih | lock r k ih => exact ih _
  | fresh k ih => exact ih _
  | write w k ih | rollback k ih => exact ih
  | commit failed k ihf ihk =>
    rw [tryCatch, alone, alone]
    split
    · exact and_congr_right fun _ => ihk
    · exact ihf

@[simp] theorem alone_pure : (pure a : Prog D R W E α).alone S I s post ↔ post (.ok a) s := .rfl

@[simp] theorem alone_raise :
    (.raise e : Prog D R W E α).alone S I s post ↔ post (.error e) s := .rfl

@[simp] theorem alone_query {f : D → α} :
    (query f : Prog D R W E α).alone S I s post ↔ post (.ok (f s.db)) s := .rfl

@[simp] theorem alone_fetch {r : R} {f : D → α} :
    (fetch r f : Prog D R W E α).alone S I s post ↔ post (.ok (f s.db)) s := .rfl

@[simp] theorem alone_fetchForUpdate {r : R} {f : D → α} :
    (fetchForUpdate r f : Prog D R W E α).alone S I s post ↔ post (.ok (f s.db)) s := .rfl

@[simp] theorem alone_freshKey {post : Except E Nat → Exec D W → Prop} :
    (freshKey : Prog D R W E Nat).alone S I s post ↔ post (.ok s.next) s.advanced := .rfl

@[simp] theorem alone_emit {w : W} {post : Except E Unit → Exec D W → Prop} :
    (emit w : Prog D R W E Unit).alone S I s post ↔ post (.ok ()) (s.push w) := .rfl

theorem alone_query_bind {f : D → α} {g : α → Prog D R W E β}
    {post : Except E β → Exec D W → Prop} :
    (query f >>= g).alone S I s post ↔ (g (f s.db)).alone S I s post := .rfl

theorem alone_emit_bind {w : W} {g : Unit → Prog D R W E β} {post : Except E β → Exec D W → Prop} :
    (emit w >>= g).alone S I s post ↔ (g ()).alone S I (s.push w) post := .rfl

theorem alone_then {post' : Except E β → Exec D W → Prop} (h : p.alone S I s post)
    (hthen : ∀ x s', post x s' → aloneThen S I f post' x s') : (p >>= f).alone S I s post' :=
  alone_bind.mpr (alone_mono hthen h)

theorem alone_each_emit {w : α → W} {l : List α} {post : Except E (List Unit) → Exec D W → Prop} :
    (each (fun a => emit (w a)) l : Prog D R W E (List Unit)).alone S I s post ↔
      post (.ok (l.map fun _ => ())) { s with pend := s.pend ++ l.map w } := by
  induction l generalizing s post with
  | nil => simp [each, alone]
  | cons a rest ih =>
    rw [each, alone_bind, alone_emit, aloneThen_ok, alone_bind, ih]
    simp [Exec.push]

theorem alone_commitOr_of_some {post : Except E Unit → Exec D W → Prop} {d : D}
    (happly : S.applyAll s.pend s.db = some d) :
    (commitOr e : Prog D R W E Unit).alone S I s post ↔
      I d (s.log ++ s.pend) ∧ post (.ok ()) (s.committed d) := by
  rw [commitOr, alone, happly]
  rfl

theorem alone_commitOr {post : Except E Unit → Exec D W → Prop}
    (hok : ∀ d, S.applyAll s.pend s.db = some d →
      I d (s.log ++ s.pend) ∧ post (.ok ()) (s.committed d))
    (hfailed : post (.error e) s.rolledBack) :
    (commitOr e : Prog D R W E Unit).alone S I s post := by
  rw [commitOr, alone]
  split
  · next d happly => exact hok d happly
  · exact hfailed

theorem alone_of_confined {P : W → Prop} {A L : R → Prop}
    (hI : ∀ {ws d d' l}, (∀ w ∈ ws, P w) → S.applyAll ws d = some d' → I d l → I d' (l ++ ws)) :
    ∀ {p : Prog D R W E α} {s : Exec D W}, p.Confined P A L → (∀ w ∈ s.pend, P w) →
      I s.db s.log → p.alone S I s fun _ s' => I s'.db s'.log ∧ ∀ w ∈ s'.pend, P w
  | .ret a, s, _, hpend, hs => ⟨hs, hpend⟩
  | .raise e, s, _, hpend, hs => ⟨hs, hpend⟩
  | .read rs k, s, hp, hpend, hs =>
    alone_of_confined hI (p := k s.db) (hp.2 s.db) hpend hs
  | .lock r k, s, hp, hpend, hs =>
    alone_of_confined hI (p := k s.db) (hp.2 s.db) hpend hs
  | .fresh k, s, hp, hpend, hs => alone_of_confined hI (s := s.advanced) (hp s.next) hpend hs
  | .write w k, s, hp, hpend, hs => by
      refine alone_of_confined hI (s := s.push w) (p := k) hp.2 ?_ hs
      intro w' hw'
      rcases List.mem_append.mp hw' with hw' | hw'
      · exact hpend w' hw'
      · exact List.mem_singleton.mp hw' ▸ hp.1
  | .commit failed k, s, hp, hpend, hs => by
      rw [alone]
      split
      · next d happly =>
          have hd := hI hpend happly hs
          exact ⟨hd, alone_of_confined hI (s := s.committed d) hp.2 (by simp) hd⟩
      · exact alone_of_confined hI (s := s.rolledBack) hp.1 (by simp) hs
  | .rollback k, s, hp, hpend, hs =>
    alone_of_confined hI (s := s.rolledBack) (p := k) hp (by simp) hs

def Maintains (S : Store D R V W) (I : D → List W → Prop) (K : Exec D W → Prop)
    (p : Prog D R W E α) : Prop := ∀ s, K s → p.alone S I s fun _ => K

section Maintains

variable {K : Exec D W → Prop}

theorem maintains_pure (a : α) : (pure a : Prog D R W E α).Maintains S I K := fun _ h => h

theorem maintains_raise (e : E) : (.raise e : Prog D R W E α).Maintains S I K := fun _ h => h

theorem maintains_query (f : D → α) : (query f : Prog D R W E α).Maintains S I K := fun _ h => h

theorem Maintains.bind (hp : p.Maintains S I K) (hf : ∀ a, (f a).Maintains S I K) :
    (p >>= f).Maintains S I K := by
  intro s hs
  refine alone_bind.mpr (alone_mono ?_ (hp s hs))
  rintro (e | a) s' hs'
  · exact hs'
  · exact hf a s' hs'

theorem Maintains.tryCatch (hp : p.Maintains S I K) (hh : ∀ e, (h e).Maintains S I K) :
    (p.tryCatch h).Maintains S I K := by
  intro s hs
  refine alone_tryCatch.mpr (alone_mono ?_ (hp s hs))
  rintro (e | a) s' hs'
  · exact hh e s' hs'
  · exact hs'

theorem Maintains.alone_swallow (hp : p.Maintains S I K) (a : α) (hs : K s) :
    (p.tryCatch fun _ => pure a).alone S I s fun x s' => (∃ b, x = .ok b) ∧ K s' := by
  refine alone_tryCatch.mpr (alone_mono ?_ (hp s hs))
  intro x s' hs'
  cases x with
  | ok b => exact ⟨⟨b, rfl⟩, hs'⟩
  | error e => exact ⟨⟨a, rfl⟩, hs'⟩

theorem Maintains.alone (hp : p.Maintains S I K) (hs : K s) :
    p.alone S I s fun _ => K := hp s hs

theorem compositional_maintains :
    Compositional fun α (p : Prog D R W E α) => p.Maintains S I K where
  pure := maintains_pure
  raise := maintains_raise
  query := maintains_query
  bind := .bind
  tryCatch := .tryCatch

end Maintains

end Prog

end Shahkar.Lib
