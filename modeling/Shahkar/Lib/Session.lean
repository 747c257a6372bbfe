import Shahkar.Lib.Alone
import Shahkar.Lib.Dict
import Shahkar.Lib.Transition

/-!
# Concurrent sessions under `READ COMMITTED`

One step of a `Sys` runs one instruction of one session, so a run is an arbitrary interleaving; a
session may also die between two instructions. A plain read returns the committed state and waits
for nobody.
-/

namespace Shahkar.Lib

variable {D R V W E Q : Type}

structure Trans (R V W : Type) where
  pend : List W := []
  held : List R := []
  seen : R → Option V := fun _ => none

namespace Trans

variable (S : Store D R V W) (t : Trans R V W)

def push (w : W) : Trans R V W := { t with pend := t.pend ++ [w] }

def rolledBack : Trans R V W := { t with pend := [], held := [] }

@[simp] theorem push_pend (w : W) : (t.push w).pend = t.pend ++ [w] := rfl
@[simp] theorem push_held (w : W) : (t.push w).held = t.held := rfl
@[simp] theorem push_seen (w : W) : (t.push w).seen = t.seen := rfl
@[simp] theorem rolledBack_pend : t.rolledBack.pend = [] := rfl
@[simp] theorem rolledBack_seen : t.rolledBack.seen = t.seen := rfl

variable [DecidableEq R]

def see (rs : List R) (d : D) : Trans R V W :=
  { t with seen := fun r => if r ∈ rs then some (S.row d r) else t.seen r }

def lock (r : R) (d : D) : Trans R V W := { t.see S [r] d with held := r :: t.held }

def committed : Trans R V W where
  pend := []
  held := []
  seen := fun r => if r ∈ S.touchedBy t.pend then none else t.seen r

def Current (d : D) : Prop := ∀ r ∈ t.held, t.seen r = some (S.row d r)

variable {S t} {d : D} {r r' : R} {rs : List R}

@[simp] theorem see_pend : (t.see S rs d).pend = t.pend := rfl
@[simp] theorem see_held : (t.see S rs d).held = t.held := rfl
@[simp] theorem see_nil : t.see S [] d = t := rfl
@[simp] theorem lock_pend : (t.lock S r d).pend = t.pend := rfl
@[simp] theorem lock_held : (t.lock S r d).held = r :: t.held := rfl
@[simp] theorem committed_pend : (t.committed S).pend = [] := rfl

theorem see_seen : (t.see S rs d).seen r = if r ∈ rs then some (S.row d r) else t.seen r := rfl

theorem lock_seen : (t.lock S r' d).seen r = if r = r' then some (S.row d r) else t.seen r := by
  simp [lock, see]

theorem committed_seen :
    (t.committed S).seen r = if r ∈ S.touchedBy t.pend then none else t.seen r := rfl

theorem Current.see (h : t.Current S d) : (t.see S rs d).Current S d := by
  intro r hr
  rw [see_seen]
  split
  · rfl
  · exact h r hr

theorem Current.lock (h : t.Current S d) : (t.lock S r d).Current S d := by
  intro r' hr'
  rw [lock_seen]
  split
  · rfl
  · next hne => exact h r' ((List.mem_cons.mp hr').resolve_left hne)

end Trans

structure Contract (D R V W : Type) where
  inv : D → Prop
  okRead : Trans R V W → R → D → Prop
  okCommit : Trans R V W → D → Prop

namespace Contract

variable [DecidableEq R] {α β : Type} (C : Contract D R V W) (S : Store D R V W)

def wp : Prog D R W E α → Trans R V W → (Except E α → Trans R V W → Prop) → Prop
  | .ret a, t, post => post (.ok a) t
  | .raise e, t, post => post (.error e) t
  | .read rs k, t, post =>
    ∀ d, C.inv d → (∀ r ∈ rs, C.okRead t r d) → wp (k d) (t.see S rs d) post
  | .lock r k, t, post => ∀ d, C.inv d → wp (k d) (t.lock S r d) post
  | .fresh k, t, post => ∀ n, wp (k n) t post
  | .write w k, t, post => wp k (t.push w) post
  | .commit failed k, t, post =>
    ∀ d, C.inv d → t.Current S d → C.okCommit t d →
      match S.applyAll t.pend d with
      | some d' => C.inv d' ∧ wp k (t.committed S) post
      | none => wp failed t.rolledBack post
  | .rollback k, t, post => wp k t.rolledBack post

variable {C S} {t : Trans R V W} {post post' : Except E α → Trans R V W → Prop}

theorem wp_mono (h : ∀ x t', post x t' → post' x t') :
    ∀ {p : Prog D R W E α} {t : Trans R V W}, C.wp S p t post → C.wp S p t post'
  | .ret a, t, hp => h _ _ hp
  | .raise e, t, hp => h _ _ hp
  | .read rs k, t, hp => fun d hd hok => wp_mono h (hp d hd hok)
  | .lock r k, t, hp => fun d hd => wp_mono h (hp d hd)
  | .fresh k, t, hp => fun n => wp_mono h (hp n)
  | .write w k, t, hp => wp_mono h (p := k) hp
  | .commit failed k, t, hp => by
      intro d hd hcur hok
      specialize hp d hd hcur hok
      split at hp
      · exact ⟨hp.1, wp_mono h hp.2⟩
      · exact wp_mono h hp
  | .rollback k, t, hp => wp_mono h (p := k) hp

theorem wp_returns {Q' : α → Prop} :
    ∀ {p : Prog D R W E α} {t : Trans R V W}, p.Returns Q' → C.wp S p t post →
      C.wp S p t fun x t' => post x t' ∧ ∀ a, x = .ok a → Q' a
  | .ret a, t, hret, hp => ⟨hp, by rintro _ ⟨⟩; exact hret⟩
  | .raise e, t, _, hp => ⟨hp, by rintro _ ⟨⟩⟩
  | .read rs k, t, hret, hp => fun d hd hok => wp_returns (hret d) (hp d hd hok)
  | .lock r k, t, hret, hp => fun d hd => wp_returns (hret d) (hp d hd)
  | .fresh k, t, hret, hp => fun n => wp_returns (hret n) (hp n)
  | .write w k, t, hret, hp => wp_returns (p := k) hret hp
  | .commit failed k, t, hret, hp => by
      intro d hd hcur hok
      specialize hp d hd hcur hok
      split at hp
      · exact ⟨hp.1, wp_returns hret.2 hp.2⟩
      · exact wp_returns hret.1 hp
  | .rollback k, t, hret, hp => wp_returns (p := k) hret hp

@[simp] theorem wp_pure (a : α) :
    C.wp S (pure a : Prog D R W E α) t post ↔ post (.ok a) t := .rfl

@[simp] theorem wp_raise (e : E) :
    C.wp S (.raise e : Prog D R W E α) t post ↔ post (.error e) t := .rfl

def andThen (C : Contract D R V W) (S : Store D R V W) (f : α → Prog D R W E β)
    (post : Except E β → Trans R V W → Prop) : Except E α → Trans R V W → Prop
  | .ok a, t => C.wp S (f a) t post
  | .error e, t => post (.error e) t

variable {P : W → Prop} {p : Prog D R W E α} {A L : R → Prop} {f : α → Prog D R W E β}

@[simp] theorem andThen_ok {post : Except E β → Trans R V W → Prop}
    {a : α} : C.andThen S f post (.ok a) t = C.wp S (f a) t post := rfl

@[simp] theorem wp_bind {post : Except E β → Trans R V W → Prop} :
    C.wp S (p >>= f) t post ↔ C.wp S p t (C.andThen S f post) := by
  change C.wp S (p.bind f) t post ↔ _
  induction p generalizing t with
  | ret a | raise e => exact .rfl
  | read rs k ih =>
    exact forall_congr' fun d => forall_congr' fun _ => forall_congr' fun _ => ih d
  | lock r k ih => exact forall_congr' fun d => forall_congr' fun _ => ih d
  | fresh k ih => exact forall_congr' fun n => ih n
  | write w k ih | rollback k ih => exact ih
  | commit failed k ihf ihk =>
    refine forall_congr' fun d => forall_congr' fun _ => forall_congr' fun _ =>
      forall_congr' fun _ => ?_
    split
    · exact and_congr_right fun _ => ihk
    · exact ihf

def orElse (C : Contract D R V W) (S : Store D R V W) (h : E → Prog D R W E α)
    (post : Except E α → Trans R V W → Prop) : Except E α → Trans R V W → Prop
  | .ok a, t => post (.ok a) t
  | .error e, t => C.wp S (h e) t post

@[simp] theorem wp_tryCatch {h : E → Prog D R W E α} :
    C.wp S (p.tryCatch h) t post ↔ C.wp S p t (C.orElse S h post) := by
  induction p generalizing t with
  | ret a | raise e => exact .rfl
  | read rs k ih =>
    exact forall_congr' fun d => forall_congr' fun _ => forall_congr' fun _ => ih d
  | lock r k ih => exact forall_congr' fun d => forall_congr' fun _ => ih d
  | fresh k ih => exact forall_congr' fun n => ih n
  | write w k ih | rollback k ih => exact ih
  | commit failed k ihf ihk =>
    refine forall_congr' fun d => forall_congr' fun _ => forall_congr' fun _ =>
      forall_congr' fun _ => ?_
    split
    · exact and_congr_right fun _ => ihk
    · exact ihf

section Instructions

variable {r : R} {f : D → α}

@[simp] theorem wp_query :
    C.wp S (Prog.query f : Prog D R W E α) t post ↔ ∀ d, C.inv d → post (.ok (f d)) t :=
  ⟨fun h d hd => h d hd fun _ hr => absurd hr List.not_mem_nil, fun h d hd _ => h d hd⟩

@[simp] theorem wp_fetch :
    C.wp S (Prog.fetch r f : Prog D R W E α) t post ↔
      ∀ d, C.inv d → C.okRead t r d → post (.ok (f d)) (t.see S [r] d) :=
  ⟨fun h d hd hok => h d hd fun _ hr => List.mem_singleton.mp hr ▸ hok,
    fun h d hd hok => h d hd (hok r (List.mem_singleton.mpr rfl))⟩

@[simp] theorem wp_fetchForUpdate :
    C.wp S (Prog.fetchForUpdate r f : Prog D R W E α) t post ↔
      ∀ d, C.inv d → post (.ok (f d)) (t.lock S r d) := .rfl

@[simp] theorem wp_freshKey {post : Except E Nat → Trans R V W → Prop} :
    C.wp S (Prog.freshKey : Prog D R W E Nat) t post ↔ ∀ n, post (.ok n) t := .rfl

variable {post : Except E Unit → Trans R V W → Prop}

@[simp] theorem wp_emit {w : W} :
    C.wp S (Prog.emit w : Prog D R W E Unit) t post ↔ post (.ok ()) (t.push w) := .rfl

theorem wp_commitOr {e : E} (hinv : ∀ d d', C.inv d → t.Current S d → C.okCommit t d →
      S.applyAll t.pend d = some d' → C.inv d')
    (hok : post (.ok ()) (t.committed S)) (hfailed : post (.error e) t.rolledBack) :
    C.wp S (Prog.commitOr e : Prog D R W E Unit) t post := by
  intro d hd hcur hokd
  split
  · next d' happly => exact ⟨hinv d d' hd hcur hokd happly, hok⟩
  · exact hfailed

end Instructions

def Preserves (C : Contract D R V W) (S : Store D R V W) (J : Trans R V W → Prop)
    (p : Prog D R W E α) : Prop := ∀ t, J t → C.wp S p t fun _ => J

section Preserves

variable {J : Trans R V W → Prop}

theorem preserves_pure (a : α) : C.Preserves S J (pure a : Prog D R W E α) := fun _ h => h

theorem preserves_raise (e : E) : C.Preserves S J (.raise e : Prog D R W E α) := fun _ h => h

theorem preserves_query (f : D → α) : C.Preserves S J (Prog.query f : Prog D R W E α) :=
  fun _ h => wp_query.mpr fun _ _ => h

variable {p : Prog D R W E α}

theorem Preserves.bind {f : α → Prog D R W E β} (hp : C.Preserves S J p)
    (hf : ∀ a, C.Preserves S J (f a)) :
    C.Preserves S J (p >>= f) := by
  intro t ht
  refine wp_bind.mpr (wp_mono ?_ (hp t ht))
  rintro (e | a) t' ht'
  · exact ht'
  · exact hf a t' ht'

theorem Preserves.tryCatch {h : E → Prog D R W E α} (hp : C.Preserves S J p)
    (hh : ∀ e, C.Preserves S J (h e)) :
    C.Preserves S J (p.tryCatch h) := by
  intro t ht
  refine wp_tryCatch.mpr (wp_mono ?_ (hp t ht))
  rintro (e | a) t' ht'
  · exact hh e t' ht'
  · exact ht'

theorem compositional_preserves :
    Prog.Compositional fun α (p : Prog D R W E α) => C.Preserves S J p where
  pure := preserves_pure
  raise := preserves_raise
  query := preserves_query
  bind := .bind
  tryCatch := .tryCatch

theorem Preserves.wp (hp : C.Preserves S J p) (ht : J t)
    (hpost : ∀ x t', J t' → post x t') : C.wp S p t post := wp_mono hpost (hp t ht)

end Preserves

structure Quiet (C : Contract D R V W) (S : Store D R V W) (P : W → Prop) (A : R → Prop) :
    Prop where
  inv : ∀ {w d d'}, P w → S.apply w d = some d' → C.inv d → C.inv d'
  rows : ∀ {w r}, P w → r ∈ S.touched w → A r

omit [DecidableEq R] in
theorem Quiet.touchedBy {A : R → Prop} (h : C.Quiet S P A) {ws : List W} (hws : ∀ w ∈ ws, P w)
    {r : R} (hr : r ∈ S.touchedBy ws) : A r := by
  obtain ⟨w, hw, hr⟩ := List.mem_flatMap.mp hr
  exact h.rows (hws w hw) hr

structure Extends (P : W → Prop) (A L : R → Prop) (t t' : Trans R V W) : Prop where
  pend : ∀ w ∈ t'.pend, P w
  seen : ∀ r, ¬ A r → ¬ L r → t'.seen r = t.seen r
  held : ∀ r, ¬ L r → r ∈ t'.held → r ∈ t.held

theorem wp_extends_rolledBack (h : C.wp S p t.rolledBack fun _ => Extends P A L t.rolledBack) :
    C.wp S p t.rolledBack fun _ => Extends P A L t := by
  refine wp_mono ?_ h
  rintro x t' ⟨hpend', hseen, hheld⟩
  exact ⟨hpend', hseen, fun r hr hmem => absurd (hheld r hr hmem) List.not_mem_nil⟩

theorem wp_of_confined (hquiet : C.Quiet S P A) :
    ∀ {p : Prog D R W E α} {t : Trans R V W}, p.Confined P A L → (∀ w ∈ t.pend, P w) →
      C.wp S p t fun _ => Extends P A L t
  | .ret a, t, _, hpend => ⟨hpend, fun _ _ _ => rfl, fun _ _ => id⟩
  | .raise e, t, _, hpend => ⟨hpend, fun _ _ _ => rfl, fun _ _ => id⟩
  | .read rs k, t, hp, hpend => by
      intro d _ _
      refine wp_mono ?_ (wp_of_confined hquiet (t := t.see S rs d) (hp.2 d) hpend)
      rintro x t' ⟨hpend', hseen, hheld⟩
      refine ⟨hpend', fun r hr hr' => (hseen r hr hr').trans ?_, hheld⟩
      rw [Trans.see_seen, if_neg fun hmem => hr (hp.1 r hmem)]
  | .lock r' k, t, hp, hpend => by
      intro d _
      refine wp_mono ?_ (wp_of_confined hquiet (t := t.lock S r' d) (hp.2 d) hpend)
      rintro x t' ⟨hpend', hseen, hheld⟩
      have hne : ∀ r, ¬ L r → r ≠ r' := by
        rintro r hr rfl
        exact hr hp.1
      refine ⟨hpend', fun r hr hr' => (hseen r hr hr').trans ?_, fun r hr hmem => ?_⟩
      · rw [Trans.lock_seen, if_neg (hne r hr')]
      · exact (List.mem_cons.mp (hheld r hr hmem)).resolve_left (hne r hr)
  | .fresh k, t, hp, hpend => fun n => wp_of_confined hquiet (hp n) hpend
  | .write w k, t, hp, hpend => by
      refine wp_mono ?_ (wp_of_confined hquiet (t := t.push w) (p := k) hp.2 ?_)
      · rintro x t' ⟨hpend', hseen, hheld⟩
        exact ⟨hpend', hseen, hheld⟩
      · intro w' hw'
        rcases List.mem_append.mp hw' with hw' | hw'
        · exact hpend w' hw'
        · exact List.mem_singleton.mp hw' ▸ hp.1
  | .commit failed k, t, hp, hpend => by
      intro d hd _ _
      split
      · next d' happly =>
          refine ⟨S.applyAll_induction (fun w hw _ _ => hquiet.inv (hpend w hw)) happly hd, ?_⟩
          refine wp_mono ?_ (wp_of_confined hquiet (t := t.committed S) hp.2 (by simp))
          rintro x t' ⟨hpend', hseen, hheld⟩
          refine ⟨hpend', fun r hr hr' => (hseen r hr hr').trans ?_, fun r hr hmem => ?_⟩
          · rw [Trans.committed_seen, if_neg fun hmem => hr (hquiet.touchedBy hpend hmem)]
          · exact absurd (hheld r hr hmem) List.not_mem_nil
      · exact wp_extends_rolledBack (wp_of_confined hquiet hp.1 (by simp))
  | .rollback k, t, hp, hpend =>
    wp_extends_rolledBack (p := k) (wp_of_confined hquiet hp (by simp))

theorem preserves_pend_of_confined
    (hcommit : ∀ {t : Trans R V W} {d d' : D}, (∀ w ∈ t.pend, P w) → C.inv d → C.okCommit t d →
      S.applyAll t.pend d = some d' → C.inv d') :
    ∀ {p : Prog D R W E α}, p.Confined P A L → C.Preserves S (fun t => ∀ w ∈ t.pend, P w) p
  | .ret a, _, t, hpend => hpend
  | .raise e, _, t, hpend => hpend
  | .read rs k, hp, t, hpend => fun d _ _ =>
    preserves_pend_of_confined hcommit (hp.2 d) (t.see S rs d) hpend
  | .lock r k, hp, t, hpend => fun d _ =>
    preserves_pend_of_confined hcommit (hp.2 d) (t.lock S r d) hpend
  | .fresh k, hp, t, hpend => fun n => preserves_pend_of_confined hcommit (hp n) t hpend
  | .write w k, hp, t, hpend => by
      refine preserves_pend_of_confined hcommit (p := k) hp.2 (t.push w) fun w' hw' => ?_
      rcases List.mem_append.mp hw' with hw' | hw'
      · exact hpend w' hw'
      · exact List.mem_singleton.mp hw' ▸ hp.1
  | .commit failed k, hp, t, hpend => by
      intro d hd _ hok
      split
      · next d' happly =>
          exact ⟨hcommit hpend hd hok happly,
            preserves_pend_of_confined hcommit hp.2 (t.committed S) (by simp)⟩
      · exact preserves_pend_of_confined hcommit hp.1 t.rolledBack (by simp)
  | .rollback k, hp, t, hpend =>
    preserves_pend_of_confined hcommit (p := k) hp t.rolledBack (by simp)

end Contract

structure Session (D R V W E : Type) where
  prog : Prog D R W E Unit
  trans : Trans R V W

namespace Session

variable [DecidableEq R] (S : Store D R V W)

def settle (t : Session D R V W E) : Session D R V W E :=
  if t.prog.finished then { t with trans := {} } else t

def move (free : R → Bool) (d : D) (n : Nat) (t : Session D R V W E) :
    Option (Session D R V W E × D × Nat × List W) :=
  match t.prog with
  | .ret _ | .raise _ => none
  | .read rs k => some (⟨k d, t.trans.see S rs d⟩, d, n, [])
  | .lock r k => if free r then some (⟨k d, t.trans.lock S r d⟩, d, n, []) else none
  | .fresh k => some (⟨k n, t.trans⟩, d, n + 1, [])
  | .write w k => some (⟨k, t.trans.push w⟩, d, n, [])
  | .commit failed k =>
    if (S.touchedBy t.trans.pend).all free then
      match S.applyAll t.trans.pend d with
      | some d' => some (⟨k, t.trans.committed S⟩, d', n, t.trans.pend)
      | none => some (⟨failed, t.trans.rolledBack⟩, d, n, [])
    else none
  | .rollback k => some (⟨k, t.trans.rolledBack⟩, d, n, [])

end Session

structure Sys (D R V W E : Type) where
  db : D
  next : Nat
  log : List W
  sess : Dict Nat (Session D R V W E)

inductive Act (Q : Type)
  | spawn (i : Nat) (q : Q)
  | run (i : Nat)
  | die (i : Nat)
  deriving Repr, DecidableEq

namespace Sys

variable [DecidableEq R] (S : Store D R V W) (prog : Q → Prog D R W E Unit)

def free (s : Sys D R V W E) (i : Nat) (r : R) : Bool :=
  s.sess.entries.all fun e => e.1 = i ∨ r ∉ e.2.trans.held

def step (s : Sys D R V W E) : Act Q → Option (Sys D R V W E)
  | .spawn i q =>
    match s.sess.get? i with
    | none => some { s with sess := s.sess.set i (Session.settle ⟨prog q, {}⟩) }
    | some _ => none
  | .run i =>
    (s.sess.get? i).bind fun t => (t.move S (s.free i) s.db s.next).map fun (t', d, n, ws) =>
      { db := d, next := n, log := s.log ++ ws, sess := s.sess.set i t'.settle }
  | .die i => (s.sess.get? i).map fun _ => { s with sess := s.sess.set i ⟨.ret (), {}⟩ }

end Sys

namespace Contract

variable [DecidableEq R] (C : Contract D R V W) (S : Store D R V W)

def Meets (d : D) (t : Session D R V W E) : Prop :=
  match t.prog with
  | .read rs _ => ∀ r ∈ rs, C.okRead t.trans r d
  | .commit _ _ => C.okCommit t.trans d
  | _ => True

structure Keeps (d : D) (t : Session D R V W E) : Prop where
  safe : C.wp S t.prog t.trans fun _ _ => True
  current : t.trans.Current S d

variable {C S} {d d' : D} {n n' : Nat} {ws : List W} {free : R → Bool}
  {t t' : Session D R V W E}

theorem keeps_new {p : Prog D R W E Unit} (h : C.wp S p {} fun _ _ => True) :
    C.Keeps S d ⟨p, {}⟩ := ⟨h, fun _ hr => absurd hr List.not_mem_nil⟩

theorem Keeps.settle (h : C.Keeps S d t) : C.Keeps S d t.settle := by
  unfold Session.settle
  split
  · next hfin =>
      refine ⟨?_, fun r hr => absurd hr List.not_mem_nil⟩
      cases hp : t.prog <;> rw [hp] at hfin <;> first | exact trivial | cases hfin
  · exact h

theorem Keeps.move (h : C.Keeps S d t) (hd : C.inv d) (hmeets : C.Meets d t)
    (hmove : t.move S free d n = some (t', d', n', ws)) : C.inv d' ∧ C.Keeps S d' t' := by
  obtain ⟨hsafe, hcur⟩ := h
  unfold Session.move at hmove
  unfold Meets at hmeets
  cases hp : t.prog with
  | ret a => simp [hp] at hmove
  | raise e => simp [hp] at hmove
  | read rs k =>
    simp only [hp, Option.some.injEq, Prod.mk.injEq] at hmove hmeets hsafe
    obtain ⟨rfl, rfl, -⟩ := hmove
    exact ⟨hd, hsafe d hd hmeets, hcur.see⟩
  | lock r k =>
    simp only [hp, Option.ite_none_right_eq_some, Option.some.injEq, Prod.mk.injEq]
      at hmove hsafe
    obtain ⟨-, rfl, rfl, -⟩ := hmove
    exact ⟨hd, hsafe d hd, hcur.lock⟩
  | fresh k =>
    simp only [hp, Option.some.injEq, Prod.mk.injEq] at hmove hsafe
    obtain ⟨rfl, rfl, -⟩ := hmove
    exact ⟨hd, hsafe n, hcur⟩
  | write w k =>
    simp only [hp, Option.some.injEq, Prod.mk.injEq] at hmove hsafe
    obtain ⟨rfl, rfl, -⟩ := hmove
    exact ⟨hd, hsafe, hcur⟩
  | commit failed k =>
    simp only [hp, Option.ite_none_right_eq_some] at hmove hmeets hsafe
    obtain ⟨-, hmove⟩ := hmove
    specialize hsafe d hd hcur hmeets
    cases happly : S.applyAll t.trans.pend d with
    | some d₁ =>
      simp only [happly, Option.some.injEq, Prod.mk.injEq] at hmove hsafe
      obtain ⟨rfl, rfl, -⟩ := hmove
      exact ⟨hsafe.1, hsafe.2, fun r hr => absurd hr List.not_mem_nil⟩
    | none =>
      simp only [happly, Option.some.injEq, Prod.mk.injEq] at hmove hsafe
      obtain ⟨rfl, rfl, -⟩ := hmove
      exact ⟨hd, hsafe, fun r hr => absurd hr List.not_mem_nil⟩
  | rollback k =>
    simp only [hp, Option.some.injEq, Prod.mk.injEq] at hmove hsafe
    obtain ⟨rfl, rfl, -⟩ := hmove
    exact ⟨hd, hsafe, fun r hr => absurd hr List.not_mem_nil⟩

theorem row_move {r : R} (hmove : t.move S free d n = some (t', d', n', ws))
    (hr : free r = false) : S.row d' r = S.row d r := by
  unfold Session.move at hmove
  cases hp : t.prog with
  | commit failed k =>
    simp only [hp, Option.ite_none_right_eq_some] at hmove
    obtain ⟨hfree, hmove⟩ := hmove
    cases happly : S.applyAll t.trans.pend d with
    | some d₁ =>
      simp only [happly, Option.some.injEq, Prod.mk.injEq] at hmove
      obtain ⟨-, rfl, -⟩ := hmove
      refine S.row_applyAll happly fun hmem => ?_
      rw [List.all_eq_true.mp hfree r hmem] at hr
      cases hr
    | none =>
      simp only [happly, Option.some.injEq, Prod.mk.injEq] at hmove
      rw [hmove.2.1]
  | lock r k =>
    simp only [hp, Option.ite_none_right_eq_some, Option.some.injEq, Prod.mk.injEq] at hmove
    rw [hmove.2.2.1]
  | ret a => simp [hp] at hmove
  | raise e => simp [hp] at hmove
  | read rs k | fresh k | write w k | rollback k =>
    simp only [hp, Option.some.injEq, Prod.mk.injEq] at hmove
    rw [hmove.2.1]

structure Sound (C : Contract D R V W) (S : Store D R V W) (s : Sys D R V W E) : Prop where
  inv : C.inv s.db
  keeps : ∀ i t, s.sess.get? i = some t → C.Keeps S s.db t

variable {s s' : Sys D R V W E} {prog : Q → Prog D R W E Unit}

theorem free_eq_false {i j : Nat} {r : R} (hj : s.sess.get? j = some t) (hne : j ≠ i)
    (hr : r ∈ t.trans.held) : s.free i r = false := by
  rw [Sys.free, List.all_eq_false]
  exact ⟨(j, t), Dict.get?_eq_some_iff.mp hj, by simp [hne, hr]⟩

def MeetsAct (C : Contract D R V W) (s : Sys D R V W E) : Act Q → Prop
  | .run i => ∀ t, s.sess.get? i = some t → C.Meets s.db t
  | _ => True

theorem Sound.step (hprog : ∀ q, C.wp S (prog q) {} fun _ _ => True) (h : C.Sound S s)
    {a : Act Q} (hok : C.MeetsAct s a) (hstep : s.step S prog a = some s') : C.Sound S s' := by
  cases a with
  | spawn i q =>
    dsimp only [Sys.step] at hstep
    split at hstep
    · obtain rfl := Option.some.inj hstep
      exact ⟨h.inv, fun _ _ => Dict.of_get?_set h.keeps (keeps_new (hprog q)).settle⟩
    · cases hstep
  | run i =>
    obtain ⟨t, hi, hstep⟩ := Option.bind_eq_some_iff.mp hstep
    obtain ⟨⟨t', d', n', ws⟩, hmove, rfl⟩ := Option.map_eq_some_iff.mp hstep
    obtain ⟨hinv, hkeeps⟩ := (h.keeps i t hi).move h.inv (hok t hi) hmove
    refine ⟨hinv, fun j u hj => ?_⟩
    rw [Dict.get?_set] at hj
    split at hj
    · obtain rfl := Option.some.inj hj
      exact hkeeps.settle
    · -- the others hold the locks of the rows they rely on
      next hne =>
        obtain ⟨hsafe, hcur⟩ := h.keeps j u hj
        refine ⟨hsafe, fun r hr => ?_⟩
        rw [row_move hmove (free_eq_false hj hne hr)]
        exact hcur r hr
  | die i =>
    obtain ⟨t, -, rfl⟩ := Option.map_eq_some_iff.mp hstep
    exact ⟨h.inv, fun _ _ => Dict.of_get?_set h.keeps (keeps_new trivial)⟩

theorem inv_of_run (hprog : ∀ q, C.wp S (prog q) {} fun _ _ => True) {s₀ : Sys D R V W E}
    (hdb : C.inv s₀.db) (hsess : s₀.sess = .empty)
    (hrun : Run (Sys.step S prog) C.MeetsAct s₀ s) : C.inv s.db := by
  refine (hrun.invariant (C.Sound S) ?_ fun h hok hstep => h.step hprog hok hstep).inv
  refine ⟨hdb, fun i t hi => ?_⟩
  rw [hsess, Dict.get?_empty] at hi
  cases hi

end Contract

namespace Sys

variable [DecidableEq R] {S : Store D R V W} {prog : Q → Prog D R W E Unit}
  {I J : D → List W → Prop} {s s' : Sys D R V W E} {t t' : Session D R V W E}

def Quiescent (s : Sys D R V W E) : Prop := ∀ i t, s.sess.get? i = some t → t.prog.finished

theorem alone_move {free : R → Bool} {d d' : D} {n n' : Nat} {log ws : List W}
    {post : Except E Unit → Exec D W → Prop}
    (h : t.prog.alone S I { db := d, next := n, pend := t.trans.pend, log } post) (hI : I d log)
    (hmove : t.move S free d n = some (t', d', n', ws)) :
    I d' (log ++ ws) ∧
      t'.prog.alone S I { db := d', next := n', pend := t'.trans.pend, log := log ++ ws } post := by
  unfold Session.move at hmove
  cases hp : t.prog with
  | ret a | raise e => simp [hp] at hmove
  | read rs k | fresh k | write w k | rollback k =>
    simp only [hp, Option.some.injEq, Prod.mk.injEq] at hmove h
    obtain ⟨rfl, rfl, rfl, rfl⟩ := hmove
    rw [List.append_nil]
    exact ⟨hI, h⟩
  | lock r k =>
    simp only [hp, Option.ite_none_right_eq_some, Option.some.injEq, Prod.mk.injEq] at hmove h
    obtain ⟨-, rfl, rfl, rfl, rfl⟩ := hmove
    rw [List.append_nil]
    exact ⟨hI, h⟩
  | commit failed k =>
    simp only [hp, Option.ite_none_right_eq_some] at hmove h
    rw [Prog.alone] at h
    obtain ⟨-, hmove⟩ := hmove
    cases happly : S.applyAll t.trans.pend d with
    | some d₁ =>
      simp only [happly, Option.some.injEq, Prod.mk.injEq] at hmove h
      obtain ⟨rfl, rfl, rfl, rfl⟩ := hmove
      exact h
    | none =>
      simp only [happly, Option.some.injEq, Prod.mk.injEq] at hmove h
      obtain ⟨rfl, rfl, rfl, rfl⟩ := hmove
      rw [List.append_nil]
      exact ⟨hI, h⟩

structure Serial (S : Store D R V W) (I J : D → List W → Prop) (s : Sys D R V W E) : Prop where
  inv : I s.db s.log
  quiescent : s.Quiescent → J s.db s.log
  works : ∀ i t, s.sess.get? i = some t → t.prog.finished = false →
    t.prog.alone S I { db := s.db, next := s.next, pend := t.trans.pend, log := s.log }
        (fun _ e => J e.db e.log) ∧
      ∀ j u, s.sess.get? j = some u → j ≠ i → u.prog.finished

omit [DecidableEq R] in
theorem serial_set {sess : Dict Nat (Session D R V W E)} {i : Nat} {d : D} {n : Nat} {log : List W}
    (hI : I d log)
    (hothers : ∀ j u, sess.get? j = some u → j ≠ i → u.prog.finished)
    (halone : t.prog.alone S I { db := d, next := n, pend := t.trans.pend, log } fun _ e =>
      J e.db e.log) :
    Serial S I J { db := d, next := n, log, sess := sess.set i t.settle } := by
  have hsettle : t.settle.prog = t.prog := by
    unfold Session.settle
    split <;> rfl
  refine ⟨hI, fun hquiet => ?_, fun j u hj hwork => ?_⟩
  · have hfinished := hquiet i t.settle (by rw [Dict.get?_set, if_pos rfl])
    rw [hsettle] at hfinished
    cases hp : t.prog with
    | ret a | raise e =>
      rw [hp] at halone
      exact halone
    | _ =>
      rw [hp] at hfinished
      cases hfinished
  · rw [Dict.get?_set] at hj
    by_cases hji : j = i
    · rw [if_pos hji] at hj
      obtain rfl := Option.some.inj hj
      have hunsettled : t.settle = t := by
        rw [hsettle] at hwork
        rw [Session.settle, hwork]
        exact if_neg Bool.false_ne_true
      rw [hunsettled]
      refine ⟨halone, fun j' u' hj' hne => ?_⟩
      rw [Dict.get?_set, if_neg (hji ▸ hne)] at hj'
      exact hothers j' u' hj' (hji ▸ hne)
    · rw [if_neg hji] at hj
      rw [hothers j u hj hji] at hwork
      cases hwork

theorem inv_of_serial {ok : Sys D R V W E → Act Q → Prop}
    (hspawn : ∀ s i q, ok s (.spawn i q) → s.Quiescent ∧ (J s.db s.log →
      (prog q).alone S I { db := s.db, next := s.next, log := s.log } fun _ e => J e.db e.log))
    (hdie : ∀ s i, ok s (.die i) → I s.db s.log → J s.db s.log)
    (hJ : ∀ d log, J d log → I d log) {s₀ : Sys D R V W E} (hinit : J s₀.db s₀.log)
    (hsess : s₀.sess = .empty) (hrun : Run (Sys.step S prog) ok s₀ s) : I s.db s.log := by
  refine (hrun.invariant (Serial S I J) ?_ ?_).inv
  · refine ⟨hJ _ _ hinit, fun _ => hinit, fun i t hi => ?_⟩
    rw [hsess, Dict.get?_empty] at hi
    cases hi
  · intro s s' a h hok hstep
    cases a with
    | spawn i q =>
      obtain ⟨hquiet, halone⟩ := hspawn s i q hok
      rw [step] at hstep
      split at hstep
      · obtain rfl := Option.some.inj hstep
        exact serial_set h.inv (fun j u hj _ => hquiet j u hj) (halone (h.quiescent hquiet))
      · cases hstep
    | run i =>
      obtain ⟨t, hi, hstep⟩ := Option.bind_eq_some_iff.mp hstep
      obtain ⟨⟨t', d', n', ws⟩, hmove, rfl⟩ := Option.map_eq_some_iff.mp hstep
      have hwork : t.prog.finished = false := by
        unfold Session.move at hmove
        cases hp : t.prog with
        | ret a | raise e => simp [hp] at hmove
        | _ => rfl
      obtain ⟨halone, hothers⟩ := h.works i t hi hwork
      obtain ⟨hI, halone'⟩ := alone_move halone h.inv hmove
      exact serial_set hI hothers halone'
    | die i =>
      obtain ⟨t, hi, rfl⟩ := Option.map_eq_some_iff.mp hstep
      have hJs := hdie s i hok h.inv
      refine ⟨h.inv, fun _ => hJs, fun j u hj hwork => ?_⟩
      rw [Dict.get?_set] at hj
      by_cases hji : j = i
      · rw [if_pos hji] at hj
        obtain rfl := Option.some.inj hj
        cases hwork
      · rw [if_neg hji] at hj
        obtain ⟨halone, hothers⟩ := h.works j u hj hwork
        refine ⟨halone, fun j' u' hj' hne => ?_⟩
        rw [Dict.get?_set] at hj'
        by_cases hji' : j' = i
        · rw [if_pos hji'] at hj'
          obtain rfl := Option.some.inj hj'
          rfl
        · rw [if_neg hji'] at hj'
          exact hothers j' u' hj' hne

end Sys

end Shahkar.Lib
