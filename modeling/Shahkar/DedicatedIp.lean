import Shahkar.Lib.Dict
import Shahkar.Lib.Transition

/-!
# Shahkar.DedicatedIp

The pool of dedicated addresses (`dedicated_ip.py`) under READ COMMITTED. Each call reads the row it
writes in an earlier step, and the write is by primary key, so it does not matter to the database
whether the row is still as it was read. `UNIQUE(user_id)` keeps a user from a second address; an
owner keeps theirs as long as nobody commits to a row that belongs to somebody else by then.
-/

namespace Shahkar.DedicatedIp

open Shahkar.Lib

/-- A call of `assign_to_user` or `release`, by its next database access. -/
inductive IpCall
  | assigning (user : Nat)
  | choosing (user : Nat)
  | binding (user ip : Nat)
  | returning (user ip : Nat)
  | releasing (user : Nat)
  | freeing (user ip : Nat)
  deriving DecidableEq

/-- The rows with their `user_id`, the calls under way, and who has been returned which address
without a `release` since. -/
structure IpPool where
  ips : Dict Nat (Option Nat)
  calls : List IpCall := []
  owners : List (Nat × Nat) := []

inductive IpStep
  | assign (user : Nat)
  | release (user : Nat)
  | next (i : Nat)

namespace IpPool

def rowOf (s : IpPool) (user : Option Nat) : Option Nat :=
  (s.ips.entries.find? fun row => row.2 = user).map Prod.fst

def getForUser (s : IpPool) (user : Nat) : Option Nat := s.rowOf (some user)

/-- Another row has the `user_id`, so that the commit raises `IntegrityError`. -/
def violatesUnique (s : IpPool) (user ip : Nat) : Bool :=
  s.ips.entries.any fun row => row.1 ≠ ip ∧ row.2 = some user

def next (s : IpPool) (i : Nat) : IpCall → IpPool
  | .assigning user =>
    match s.getForUser user with
    | some ip => { s with calls := s.calls.eraseIdx i, owners := (user, ip) :: s.owners }
    | none => { s with calls := s.calls.set i (.choosing user) }
  | .choosing user =>
    match s.rowOf none with
    | some ip => { s with calls := s.calls.set i (.binding user ip) }
    | none => { s with calls := s.calls.eraseIdx i }
  | .binding user ip =>
    if s.violatesUnique user ip then { s with calls := s.calls.eraseIdx i }
    else { s with
      ips := s.ips.modify ip fun _ => some user
      calls := s.calls.set i (.returning user ip) }
  | .returning user ip =>
    { s with calls := s.calls.eraseIdx i, owners := (user, ip) :: s.owners }
  | .releasing user =>
    match s.getForUser user with
    | some ip => { s with calls := s.calls.set i (.freeing user ip) }
    | none => { s with calls := s.calls.eraseIdx i }
  | .freeing _ ip => { s with ips := s.ips.modify ip fun _ => none, calls := s.calls.eraseIdx i }

def step (s : IpPool) : IpStep → Option IpPool
  | .assign user => some { s with calls := s.calls ++ [.assigning user] }
  | .release user => some
    { s with calls := s.calls ++ [.releasing user], owners := s.owners.filter (·.1 ≠ user) }
  | .next i => (s.calls[i]?).map (s.next i)

def Bound (s : IpPool) (user ip : Nat) : Prop := s.ips.get? ip = some (some user)

variable {s s' : IpPool} {user ip i : Nat} {call : IpCall}

theorem get?_of_rowOf {user : Option Nat} (h : s.rowOf user = some ip) :
    s.ips.get? ip = some user := by
  obtain ⟨⟨ip', user'⟩, hfind, rfl⟩ := Option.map_eq_some_iff.mp h
  obtain rfl : user' = user := by simpa using List.find?_some hfind
  exact Dict.get?_eq_some_iff.mpr (List.mem_of_find?_eq_some hfind)

theorem bound_modify {value : Option Nat} {calls : List IpCall} {other x : Nat} :
    Bound { s with ips := s.ips.modify ip fun _ => value, calls := calls } other x ↔
      if x = ip then (s.ips.get? ip).isSome ∧ value = some other else s.Bound other x := by
  simp only [Bound, Dict.get?_modify]
  split
  · next hx =>
    subst hx
    cases s.ips.get? x <;> simp
  · rfl

/-!
### One address each
-/

def assigns : IpCall → Option Nat
  | .assigning user | .choosing user | .binding user _ | .returning user _ => some user
  | .releasing _ | .freeing _ _ => none

def releases : IpCall → Option Nat
  | .releasing user | .freeing user _ => some user
  | .assigning _ | .choosing _ | .binding _ _ | .returning _ _ => none

/-- The row that the call is about to write belongs to nobody else. -/
def unmoved (s : IpPool) : IpCall → Bool
  | .binding user ip | .freeing user ip => (s.ips.get? ip).all fun owner => owner.all (· = user)
  | _ => true

/-- `assign_to_user` and `release` of one user do not overlap, and no commit is to a row that somebody
else has by then. -/
def orderly (s : IpPool) : IpStep → Bool
  | .assign user => s.calls.all fun call => releases call ≠ some user
  | .release user => s.calls.all fun call => assigns call ≠ some user
  | .next i => s.calls[i]?.all s.unmoved

theorem eq_of_unmoved (h : (s.ips.get? ip).all (fun owner => owner.all (· = user)) = true)
    {other : Nat} (hother : s.Bound other ip) : other = user := by
  rw [Bound] at hother
  simpa [hother] using h

/-- What a call may rely on. -/
def Current (s : IpPool) : IpCall → Prop
  | .assigning _ | .choosing _ => True
  | .binding _ ip => (s.ips.get? ip).isSome
  | .returning user ip => s.Bound user ip
  | .releasing user | .freeing user _ => ∀ e ∈ s.owners, e.1 ≠ user

structure Sound (s : IpPool) : Prop where
  kept : ∀ e ∈ s.owners, s.Bound e.1 e.2
  current : ∀ call ∈ s.calls, s.Current call
  apart : ∀ c ∈ s.calls, ∀ c' ∈ s.calls, ∀ user, assigns c = some user → releases c' ≠ some user

/-- A call that goes on keeps its user and its kind. -/
theorem Sound.replace (h : s.Sound) (hcall : call ∈ s.calls) {call' : IpCall}
    (hassigns : assigns call' = assigns call) (hreleases : releases call' = releases call)
    (hcurrent : s.Current call') : Sound { s with calls := s.calls.set i call' } := by
  have hset : ∀ c ∈ s.calls.set i call', c ∈ s.calls ∨ c = call' :=
    fun c => List.mem_or_eq_of_mem_set
  refine ⟨h.kept, fun c hc => ?_, fun c hc c' hc' user hassign => ?_⟩
  · rcases hset c hc with hc | rfl
    exacts [h.current c hc, hcurrent]
  · rcases hset c hc with hold | rfl <;> rcases hset c' hc' with hold' | rfl
    · exact h.apart c hold c' hold' user hassign
    · exact hreleases ▸ h.apart c hold call hcall user hassign
    · exact h.apart call hcall c' hold' user (hassigns ▸ hassign)
    · exact hreleases ▸ h.apart call hcall call hcall user (hassigns ▸ hassign)

theorem Sound.drop (h : s.Sound) (i : Nat) : Sound { s with calls := s.calls.eraseIdx i } := by
  have hold : ∀ c ∈ s.calls.eraseIdx i, c ∈ s.calls := fun c => List.mem_of_mem_eraseIdx
  exact ⟨h.kept, fun c hc => h.current c (hold c hc),
    fun c hc c' hc' => h.apart c (hold c hc) c' (hold c' hc')⟩

theorem Sound.own (h : s.Sound) (hcall : call ∈ s.calls) (hassigns : assigns call = some user)
    (hbound : s.Bound user ip) : Sound { s with owners := (user, ip) :: s.owners } := by
  refine ⟨fun e he => ?_, fun c hc => ?_, h.apart⟩
  · rcases List.mem_cons.mp he with rfl | he
    exacts [hbound, h.kept e he]
  · have hcurrent := h.current c hc
    have hapart := h.apart call hcall c hc user hassigns
    cases c with
    | releasing other | freeing other x =>
      refine List.forall_mem_cons.mpr ⟨fun heq => hapart ?_, hcurrent⟩
      exact congrArg some heq.symm
    | _ => exact hcurrent

/-- A row that nobody else has may be written, if no owner of it is lost. -/
theorem Sound.write (h : s.Sound) (value : Option Nat)
    (hkept : ∀ other, s.Bound other ip → (∃ e ∈ s.owners, e = (other, ip)) ∨
      .returning other ip ∈ s.calls → value = some other) :
    Sound { s with ips := s.ips.modify ip fun _ => value } := by
  have hbound : ∀ other x, s.Bound other x → ((∃ e ∈ s.owners, e = (other, x)) ∨
      .returning other x ∈ s.calls) →
      Bound { s with ips := s.ips.modify ip fun _ => value } other x := by
    intro other x hx hneeded
    refine bound_modify.mpr ?_
    split
    · next heq =>
      subst heq
      exact ⟨by rw [hx]; rfl, hkept other hx hneeded⟩
    · exact hx
  refine ⟨fun e he => hbound e.1 e.2 (h.kept e he) (.inl ⟨e, he, rfl⟩), fun c hc => ?_, h.apart⟩
  have hcurrent := h.current c hc
  cases c with
  | binding other x =>
    simp only [Current, Dict.get?_modify] at hcurrent ⊢
    split
    · next heq => simpa [← heq] using hcurrent
    · exact hcurrent
  | returning other x => exact hbound other x hcurrent (.inr hc)
  | _ => exact hcurrent

theorem sound_next (h : s.Sound) (hcall : s.calls[i]? = some call) (hok : s.unmoved call) :
    (s.next i call).Sound := by
  have hmem : call ∈ s.calls := List.mem_of_getElem? hcall
  have hcurrent := h.current call hmem
  cases call with
  | assigning user =>
    rw [next]
    split
    · next ip hfound => exact (h.own hmem rfl (get?_of_rowOf hfound)).drop i
    · exact h.replace hmem rfl rfl trivial
  | choosing user =>
    rw [next]
    split
    · next ip hfree =>
      exact h.replace hmem rfl rfl (show (s.ips.get? ip).isSome by rw [get?_of_rowOf hfree]; rfl)
    · exact h.drop i
  | binding user ip =>
    rw [next]
    split
    · exact h.drop i
    · have hwritten := h.write (some user) fun other hother _ =>
        congrArg some (eq_of_unmoved hok hother).symm
      refine Sound.replace hwritten hmem rfl rfl (bound_modify.mpr ?_)
      rw [if_pos rfl]
      exact ⟨hcurrent, rfl⟩
  | returning user ip => exact (h.own hmem rfl hcurrent).drop i
  | releasing user =>
    rw [next]
    split
    · exact h.replace hmem rfl rfl hcurrent
    · exact h.drop i
  | freeing user ip =>
    refine Sound.drop (h.write none fun other hother hneeded => ?_) i
    obtain rfl := eq_of_unmoved hok hother
    rcases hneeded with ⟨e, he, rfl⟩ | hreturning
    · exact absurd rfl (hcurrent _ he)
    · exact absurd rfl (h.apart _ hreturning _ hmem other rfl)

theorem sound_step {a : IpStep} (h : s.Sound) (hok : s.orderly a) (hstep : s.step a = some s') :
    s'.Sound := by
  cases a with
  | assign user =>
    obtain rfl := Option.some.inj hstep
    refine ⟨h.kept, fun c hc => ?_, fun c hc c' hc' other hassign => ?_⟩
    · rcases List.mem_append.mp hc with hc | hc
      · exact h.current c hc
      · cases List.mem_singleton.mp hc
        trivial
    · rcases List.mem_append.mp hc' with hc' | hc'
      · rcases List.mem_append.mp hc with hc | hc
        · exact h.apart c hc c' hc' other hassign
        · cases List.mem_singleton.mp hc
          cases hassign
          -- the new call is apart from the releases under way, as the order of calls asks
          exact of_decide_eq_true (List.all_eq_true.mp hok c' hc')
      · cases List.mem_singleton.mp hc'
        exact nofun
  | release user =>
    obtain rfl := Option.some.inj hstep
    -- the user gives its address up when the call starts
    have howners : ∀ e ∈ s.owners.filter (·.1 ≠ user), e ∈ s.owners ∧ e.1 ≠ user := by
      intro e he
      simpa using he
    refine ⟨fun e he => h.kept e (howners e he).1, fun c hc => ?_, fun c hc c' hc' other hassign => ?_⟩
    · rcases List.mem_append.mp hc with hc | hc
      · have hcurrent := h.current c hc
        cases c with
        | releasing other | freeing other ip => exact fun e he => hcurrent e (howners e he).1
        | _ => exact hcurrent
      · cases List.mem_singleton.mp hc
        exact fun e he => (howners e he).2
    · rcases List.mem_append.mp hc with hc | hc
      · rcases List.mem_append.mp hc' with hc' | hc'
        · exact h.apart c hc c' hc' other hassign
        · cases List.mem_singleton.mp hc'
          intro heq
          cases heq
          exact of_decide_eq_true (List.all_eq_true.mp hok c hc) hassign
      · cases List.mem_singleton.mp hc
        cases hassign
  | next i =>
    obtain ⟨call, hcall, rfl⟩ := Option.map_eq_some_iff.mp hstep
    rw [orderly, hcall, Option.all_some] at hok
    exact sound_next h hcall hok

end IpPool

end Shahkar.DedicatedIp
