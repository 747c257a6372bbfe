import Mathlib.Data.List.Chain

/-!
`app/billing_guard.py`: users of the local core are disconnected if billing stays blind. Times are
in milliseconds.
-/

namespace Shahkar.BillingGuard

structure Guard where
  blindCycles : Nat := 0
  lastDisconnectAt : Int := 0
  lastReclaimAt : Int := 0

/-- What one call finds; `reclaims` says whether a reclaim would restore billing. -/
structure Check where
  now : Int
  billable : Bool := true
  restarting : Bool := false
  startedAt : Option Int := none
  apiOk : Bool := false
  unmanaged : Bool := false
  started : Bool := false
  reclaimAt : Int := now
  reclaims : Bool := false
  disconnectAt : Int := now

def Check.settling (c : Check) : Bool := c.startedAt.any (c.now - · < 15000)

def Check.billingOk (c : Check) : Bool := c.apiOk && (c.unmanaged || c.started)

/-- The call gets as far as looking at the core, and finds billing blind. -/
def Guard.findsBlind (cycles : Nat) (g : Guard) (c : Check) : Bool :=
  cycles ≠ 0 && c.billable && !c.restarting && 60000 ≤ c.now - g.lastDisconnectAt &&
    !c.settling && !c.billingOk

inductive Effect
  | none
  | recover
  | disconnect
  deriving DecidableEq

def attemptCoreReclaim (g : Guard) (c : Check) : Guard × Bool :=
  if c.reclaimAt - g.lastReclaimAt < 10000 then (g, false)
  else ({ g with lastReclaimAt := c.reclaimAt }, c.reclaims)

def checkBillingIntegrity (cycles : Nat) (g : Guard) (c : Check) : Guard × Effect :=
  if cycles = 0 then (g, .none)
  else if !c.billable then ({ g with blindCycles := 0 }, .none)
  else if c.restarting then ({ g with blindCycles := g.blindCycles - 1 }, .none)
  else if c.now - g.lastDisconnectAt < 60000 then ({ g with blindCycles := 0 }, .none)
  else if c.settling then ({ g with blindCycles := g.blindCycles - 1 }, .none)
  else if c.billingOk then
    ({ g with blindCycles := g.blindCycles - 1 }, if 0 < g.blindCycles then .recover else .none)
  else
    let tried := attemptCoreReclaim g c
    if tried.2 then ({ tried.1 with blindCycles := 0 }, .none)
    else if g.blindCycles + 1 < cycles then
      ({ tried.1 with blindCycles := g.blindCycles + 1 }, .none)
    else ({ tried.1 with blindCycles := 0, lastDisconnectAt := c.disconnectAt }, .disconnect)

/-- A run of the job, and its calls that disconnect. -/
def run (cycles : Nat) (g : Guard) : List Check → Guard × List Check
  | [] => (g, [])
  | c :: rest =>
    let (g, effect) := checkBillingIntegrity cycles g c
    let (g, fired) := run cycles g rest
    (g, if effect = .disconnect then c :: fired else fired)

/-- How many calls of a run find billing blind. -/
def blindCalls (cycles : Nat) (g : Guard) : List Check → Nat
  | [] => 0
  | c :: rest =>
    (g.findsBlind cycles c).toNat + blindCalls cycles (checkBillingIntegrity cycles g c).1 rest

variable {cycles : Nat} {g : Guard} {c : Check} {checks : List Check}

theorem check_cases (cycles : Nat) (g : Guard) (c : Check) :
    let after := checkBillingIntegrity cycles g c
    (after.2 = .disconnect ∧ g.findsBlind cycles c ∧ cycles ≤ g.blindCycles + 1 ∧
      g.lastDisconnectAt + 60000 ≤ c.now ∧ after.1.blindCycles = 0 ∧
      after.1.lastDisconnectAt = c.disconnectAt) ∨
    (after.2 ≠ .disconnect ∧ after.1.lastDisconnectAt = g.lastDisconnectAt ∧
      after.1.blindCycles ≤ g.blindCycles + (g.findsBlind cycles c).toNat ∧
      (g.findsBlind cycles c → c.reclaims = false →
        after.1.blindCycles = g.blindCycles + 1 ∧ g.blindCycles + 1 < cycles)) := by
  have htried : (attemptCoreReclaim g c).1.lastDisconnectAt = g.lastDisconnectAt ∧
      ((attemptCoreReclaim g c).2 → c.reclaims) := by
    unfold attemptCoreReclaim
    split <;> simp
  fun_cases checkBillingIntegrity <;> grind [Guard.findsBlind]

/-- **No storm of disconnects**: two of them are a cooldown apart, and each is paid for by as many
calls that found billing blind as `BILLING_BLIND_DISCONNECT_CYCLES` says. -/
theorem disconnects_spaced_and_paid (cycles : Nat) (g : Guard) (checks : List Check) :
    (∀ c ∈ (run cycles g checks).2.head?, g.lastDisconnectAt + 60000 ≤ c.now) ∧
    (run cycles g checks).2.IsChain (fun c c' => c.disconnectAt + 60000 ≤ c'.now) ∧
    cycles * (run cycles g checks).2.length + (run cycles g checks).1.blindCycles ≤
      g.blindCycles + blindCalls cycles g checks := by
  induction checks generalizing g with
  | nil => simp [run, blindCalls]
  | cons c rest ih =>
    obtain ⟨hhead, hchain, hpaid⟩ := ih (checkBillingIntegrity cycles g c).1
    rw [blindCalls]
    obtain ⟨heffect, hblind, hcycles, hcool, hzero, hat⟩ | ⟨heffect, hlast, hstep, -⟩ :=
      check_cases cycles g c
    · simp only [run, heffect, if_true]
      rw [hat] at hhead
      refine ⟨by simpa using hcool, List.isChain_cons.mpr ⟨hhead, hchain⟩, ?_⟩
      rw [hzero] at hpaid
      rw [hblind, Bool.toNat_true, List.length_cons, Nat.mul_succ]
      omega
    · simp only [run, heffect, if_false]
      rw [hlast] at hhead
      exact ⟨hhead, hchain, by omega⟩

/-- **The guard fails closed**: calls that find billing blind, as many as the count lacks,
disconnect. -/
theorem blind_spell_disconnects (hne : checks ≠ [])
    (hlong : cycles ≤ g.blindCycles + checks.length)
    (hblind : ∀ c ∈ checks, g.findsBlind cycles c ∧ c.reclaims = false) :
    (run cycles g checks).2 ≠ [] := by
  induction checks generalizing g with
  | nil => exact absurd rfl hne
  | cons c rest ih =>
    obtain ⟨⟨hb, hreclaims⟩, hrest⟩ := List.forall_mem_cons.mp hblind
    obtain ⟨heffect, -⟩ | ⟨heffect, hlast, -, hcount⟩ := check_cases cycles g c
    · simp [run, heffect]
    · obtain ⟨hsucc, hmore⟩ := hcount hb hreclaims
      rw [List.length_cons] at hlong
      simp only [run, heffect, if_false]
      refine ih ?_ (by omega) fun c hc => ?_
      · rintro rfl
        simp at hlong
        omega
      · rw [Guard.findsBlind, hlast]
        exact hrest c hc

theorem three_blind_checks_disconnect :
    (run 3 {} [{ now := 60000 }, { now := 90000 }, { now := 120000 }]).2 ≠ [] :=
  blind_spell_disconnects (by decide) (by decide) (by decide)

end Shahkar.BillingGuard
