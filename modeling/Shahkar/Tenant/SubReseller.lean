import Mathlib.Data.Int.ConditionallyCompleteOrder
import Mathlib.Order.ConditionallyCompleteLattice.Basic
import Shahkar.Lib.Dict
import Shahkar.Lib.Transition

/-!
# The quotas of sub-resellers (`app/tenant/sub_reseller.py`)

`None` is no limit. A new sub-reseller without a quota inherits the parent's, but an update to
`None` clears the quota, whatever the parent's is.
-/

namespace Shahkar.Tenant

open Shahkar.Lib

structure Admin where
  username : String
  isSudo : Bool := false
  maxUsers : Option Int := none
  maxNodes : Option Int := none
  parentAdminId : Option Nat := none
  tenantId : Option Nat := none
  commissionPercent : Int := 0

structure Admins where
  rows : Dict Nat Admin := Dict.empty
  nextId : Nat := 1

structure Settings where
  subResellerMax : Int := 10
  defaultCommissionPercent : Int := 0

structure SubResellerCreate where
  username : String
  maxUsers : Option Int := none
  maxNodes : Option Int := none
  commissionPercent : Option Int := none

structure SubResellerUpdate where
  maxUsers : Option (Option Int) := none
  maxNodes : Option (Option Int) := none
  commissionPercent : Option Int := none

/-- The calls of a parent, with the id of the child that is updated. -/
inductive QuotaCall
  | create (body : SubResellerCreate)
  | update (childId : Nat) (body : SubResellerUpdate)

def clampChildQuota : Option Int → Option Int → Option Int
  | none, child => child
  | parent, none => parent
  | some parent, some child => some (min parent child)

def clampPercent (percent : Int) : Int := max 0 (min 100 percent)

def updatedQuota (parent child : Option Int) : Option (Option Int) → Option Int
  | none => child
  | some none => none
  | some (some n) => clampChildQuota parent (some n)

section Calls

variable (ps : Settings) (parentId : Nat) (parent : Admin)

def countChildren (s : Admins) : Nat :=
  s.rows.entries.countP fun e => e.2.parentAdminId = some parentId

def assertCanCreateChild (s : Admins) : Except (Nat × String) Unit :=
  let current := countChildren parentId s
  let limit := ps.subResellerMax
  if parent.isSudo = false ∧ limit ≤ current then
    .error (400, s!"Sub-reseller limit reached ({current}/{limit})")
  else .ok ()

def newChild (body : SubResellerCreate) : Admin where
  username := body.username
  maxUsers := clampChildQuota parent.maxUsers body.maxUsers
  maxNodes := clampChildQuota parent.maxNodes body.maxNodes
  parentAdminId := some parentId
  tenantId := parent.tenantId
  commissionPercent :=
    match body.commissionPercent with
    | some percent => clampPercent percent
    | none =>
      if parent.commissionPercent ≠ 0 then parent.commissionPercent
      else ps.defaultCommissionPercent

def createSubReseller (body : SubResellerCreate) (s : Admins) : Except (Nat × String) Admins := do
  assertCanCreateChild ps parentId parent s
  if s.rows.entries.any fun e => e.2.username = body.username then
    throw (409, "Admin already exists")
  return { rows := s.rows.set s.nextId (newChild ps parentId parent body), nextId := s.nextId + 1 }

def updateSubReseller (childId : Nat) (child : Admin) (body : SubResellerUpdate) (s : Admins) :
    Except (Nat × String) Admins :=
  if child.parentAdminId ≠ some parentId then .error (403, "Not your sub-reseller")
  else .ok { s with rows := s.rows.set childId { child with
    maxUsers := updatedQuota parent.maxUsers child.maxUsers body.maxUsers
    maxNodes := updatedQuota parent.maxNodes child.maxNodes body.maxNodes
    commissionPercent :=
      (body.commissionPercent.map clampPercent).getD child.commissionPercent } }

def call (s : Admins) : QuotaCall → Except (Nat × String) Admins
  | .create body => createSubReseller ps parentId parent body s
  | .update childId body =>
    match s.rows.get? childId with
    | none => .error (404, "Sub-reseller not found")
    | some child => updateSubReseller parentId parent childId child body s

/-- A call that is refused changes nothing. -/
def step (s : Admins) (c : QuotaCall) : Option Admins :=
  some ((call ps parentId parent s c).toOption.getD s)

def quota (value : Option Int) : WithTop Int := value

def Bounded (s : Admins) : Prop :=
  ∀ id child, s.rows.get? id = some child → child.parentAdminId = some parentId →
    quota child.maxUsers ≤ quota parent.maxUsers ∧ quota child.maxNodes ≤ quota parent.maxNodes

/-- The call takes a quota of a child away while the parent has one. -/
def Clears (s : Admins) : QuotaCall → Prop
  | .create _ => False
  | .update childId body =>
    ∃ child, s.rows.get? childId = some child ∧ child.parentAdminId = some parentId ∧
      (body.maxUsers = some none ∧ parent.maxUsers ≠ none ∨
        body.maxNodes = some none ∧ parent.maxNodes ≠ none)

end Calls

variable {ps : Settings} {parentId : Nat} {parent child : Admin} {s s' : Admins}

theorem quota_clampChildQuota (p c : Option Int) :
    quota (clampChildQuota p c) = min (quota p) (quota c) := by
  cases p with
  | none => exact (min_eq_right le_top).symm
  | some p =>
    cases c with
    | none => exact (min_eq_left le_top).symm
    | some c => exact WithTop.coe_min p c

theorem quota_updatedQuota_le_iff {p c : Option Int} {new : Option (Option Int)}
    (h : quota c ≤ quota p) :
    quota (updatedQuota p c new) ≤ quota p ↔ ¬ (new = some none ∧ p ≠ none) := by
  rcases new with _ | _ | n
  · simpa [updatedQuota] using h
  · have htop : quota none ≤ quota p ↔ p = none := top_le_iff
    simpa [updatedQuota] using htop
  · simp [updatedQuota, quota_clampChildQuota]

theorem bounded_set_iff (h : Bounded parentId parent s) (id : Nat)
    (hparent : child.parentAdminId = some parentId) (nextId : Nat) :
    Bounded parentId parent ⟨s.rows.set id child, nextId⟩ ↔
      quota child.maxUsers ≤ quota parent.maxUsers ∧
        quota child.maxNodes ≤ quota parent.maxNodes := by
  constructor
  · intro hbounded
    exact hbounded id child (by simp [Dict.get?_set]) hparent
  · exact fun hchild _ _ => Dict.of_get?_set h fun _ => hchild

theorem bounded_create (h : Bounded parentId parent s) (body : SubResellerCreate)
    (hcall : createSubReseller ps parentId parent body s = .ok s') :
    Bounded parentId parent s' := by
  unfold createSubReseller at hcall
  cases hassert : assertCanCreateChild ps parentId parent s with
  | error e => simp [hassert, bind, Except.bind] at hcall
  | ok =>
    simp only [hassert, bind, Except.bind] at hcall
    split at hcall
    · cases hcall
    · obtain rfl := Except.ok.inj hcall
      refine (bounded_set_iff h _ rfl _).mpr ?_
      simp only [newChild, quota_clampChildQuota]
      exact ⟨min_le_left _ _, min_le_left _ _⟩

theorem bounded_step_iff (h : Bounded parentId parent s) {c : QuotaCall}
    (hstep : step ps parentId parent s c = some s') :
    Bounded parentId parent s' ↔ ¬ Clears parentId parent s c := by
  obtain rfl := Option.some.inj hstep
  cases c with
  | create body =>
    refine iff_of_true ?_ not_false
    cases hcall : call ps parentId parent s (.create body) with
    | error e => exact h
    | ok s' => exact bounded_create h body hcall
  | update childId body =>
    cases hrow : s.rows.get? childId with
    | none => simpa [call, hrow, Clears, Except.toOption] using h
    | some child =>
      by_cases hparent : child.parentAdminId = some parentId
      · simp only [call, hrow, updateSubReseller, hparent, ne_eq, not_true_eq_false, if_false,
          Except.toOption, Option.getD_some, Clears, Option.some.injEq, exists_eq_left', true_and]
        obtain ⟨husers, hnodes⟩ := h childId child hrow hparent
        rw [bounded_set_iff h childId rfl, quota_updatedQuota_le_iff husers,
          quota_updatedQuota_le_iff hnodes, not_or]
      · simpa [call, hrow, updateSubReseller, hparent, Clears, Except.toOption] using h

/-- Children stay within their parent exactly as long as calls clear nothing. -/
theorem children_bounded_iff {s₀ : Admins} (hinit : Bounded parentId parent s₀)
    (h : Run (step ps parentId parent) (fun s c => ¬ Clears parentId parent s c) s₀ s) :
    Bounded parentId parent s ∧ ∀ c s', step ps parentId parent s c = some s' →
      (Bounded parentId parent s' ↔ ¬ Clears parentId parent s c) := by
  have hbounded : Bounded parentId parent s :=
    h.invariant (Bounded parentId parent) hinit fun hs hkeeps hstep =>
      (bounded_step_iff hs hstep).mpr hkeeps
  exact ⟨hbounded, fun c s' => bounded_step_iff hbounded⟩

theorem child_inherits_quota :
    let parent : Admin := { username := "parent", maxUsers := some 5 }
    Bounded 1 parent ⟨Dict.empty.set 1
      { username := "child", maxUsers := some 5, parentAdminId := some 1 }, 2⟩ := by
  intro parent
  have hrun : Run (step {} 1 parent) (fun s c => ¬ Clears 1 parent s c) {} _ :=
    .next .init not_false rfl (a := .create { username := "child" })
  exact (children_bounded_iff (by simp [Bounded]) hrun).1

/-- **A child without a limit**, of a parent with one. -/
theorem child_quota_cleared :
    let parent : Admin := { username := "parent", maxUsers := some 5 }
    let create : QuotaCall := .create { username := "child", maxUsers := some 5 }
    let clear : QuotaCall := .update 1 { maxUsers := some none }
    ((step {} 1 parent {} create).bind fun s => (step {} 1 parent s clear).bind fun s' =>
      (s'.rows.get? 1).map fun child => (child.parentAdminId, child.maxUsers)) =
        some (some 1, none) := by
  decide

end Shahkar.Tenant
