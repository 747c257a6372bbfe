import Shahkar.Sync.Delivery

/-!
# Shahkar.Sync.Progress

**No outbox row is stuck.** `attempts` is counted by the claim and `dead` is written by `_finish`
only, so a row that is on its last attempt can be lost for good. A run in which no claim takes a row
for its last attempt keeps every row below `MAX_ATTEMPTS`, and such a row is claimable again once it
is due or stale.
-/

namespace Shahkar.Sync

open Shahkar.Lib

variable {P D C : Type}

namespace Outbox

variable {s s' : Outbox P D C} {step : OutboxStep P D}

/-- The row is claimable after some time and a `_reclaim_stale`, no time included. -/
def ClaimableLater (s : Outbox P D C) (id : Nat) : Prop :=
  ∃ seconds : Nat, ((s.rows.reclaim (s.now + seconds)).get? id).any
    (OutboxRow.claimable (s.now + seconds))

/-- No claim takes a row for its last attempt, and no call joins a row that is done or dead. -/
def retryable (s : Outbox P D C) : OutboxStep P D → Bool
  | .enqueue j =>
    match s.callers[j]? with
    | some (.found _ _ (some id)) => (s.rows.get? id).any fun row => ¬ row.status.isFinal
    | _ => true
  | step => (s.taken step).all fun e => e.2 + 1 < maxAttempts

/-- Every row has an attempt left, also after the claims that are on their way. -/
structure Progresses (s : Outbox P D C) : Prop where
  rows : ∀ id row, s.rows.get? id = some row → row.attempts < maxAttempts
  selected : ∀ selected, .selected selected ∈ s.workers → ∀ e ∈ selected, e.2 + 1 < maxAttempts

/-!
### Attempts that are left
-/

variable {row : OutboxRow P} {w w' : Worker P D} {effects : Effects P D C}

theorem claimableLater_of_attempts {id : Nat} (hrow : s.rows.get? id = some row)
    (hlive : row.status.isFinal = false) (hattempts : row.attempts < maxAttempts) :
    s.ClaimableLater id := by
  have hget : ∀ seconds : Nat, (s.rows.reclaim (s.now + seconds)).get? id =
      some (row.reclaim (s.now + seconds)) := by
    intro seconds
    rw [Table.get?_reclaim, hrow]
    rfl
  cases hstatus : row.status with
  | running =>
    -- once it is stale it is pending again, and due
    refine ⟨(row.updatedAt - s.now).toNat + 46, ?_⟩
    have hstale : row.status = .running ∧ row.updatedAt <
        s.now + ((row.updatedAt - s.now).toNat + 46 : Nat) - staleRunningSec := by
      refine ⟨hstatus, ?_⟩
      unfold staleRunningSec
      omega
    rw [hget, OutboxRow.reclaim, if_pos hstale]
    simpa [OutboxRow.claimable] using hattempts
  | pending | failed =>
    refine ⟨(row.nextRetryAt.getD 0 - s.now).toNat, ?_⟩
    have hkept : ∀ now, row.reclaim now = row := fun now => by simp [OutboxRow.reclaim, hstatus]
    rw [hget, hkept, Option.any_some]
    refine decide_eq_true ⟨by simp [hstatus], ?_, hattempts⟩
    cases row.nextRetryAt with
    | none => rfl
    | some retry =>
      simp only [Option.all_some, Option.getD_some, decide_eq_true_eq]
      omega
  | done | dead =>
    rw [hstatus] at hlive
    cases hlive

/-!
### Steps
-/

theorem attempts_finish (now jitter : Int) (ok : Bool) (row : OutboxRow P) :
    (row.finish now ok jitter).attempts = row.attempts := by
  unfold OutboxRow.finish
  split_ifs <;> rfl

/-- A claim writes the attempts that its query read, and one more. -/
theorem attempts_claim {now : Int} {selected : List (Nat × Nat)} {rows : Table P} {id : Nat}
    (hrows : ∀ id row, rows.get? id = some row → row.attempts < maxAttempts)
    (hselected : ∀ e ∈ selected, e.2 + 1 < maxAttempts)
    (h : (rows.claim now selected).get? id = some row) : row.attempts < maxAttempts := by
  induction selected generalizing rows with
  | nil => exact hrows id row h
  | cons e rest ih =>
    obtain ⟨he, hrest⟩ := List.forall_mem_cons.mp hselected
    exact ih (fun _ _ => Dict.of_get?_modify hrows fun _ _ => he) hrest h

theorem Progresses.of_workers (h : s.Progresses) (hrows : s'.rows = s.rows)
    (hworkers : ∀ selected, .selected selected ∈ s'.workers → .selected selected ∈ s.workers) :
    s'.Progresses :=
  ⟨hrows ▸ h.rows, fun selected hmem => h.selected selected (hworkers selected hmem)⟩

theorem selected_of_mem_set {ws : List (Worker P D)} {i : Nat} {selected : List (Nat × Nat)}
    (h : .selected selected ∈ ws.set i w') (hw' : ∀ rows, w' ≠ .selected rows) :
    .selected selected ∈ ws :=
  (List.mem_or_eq_of_mem_set h).resolve_right fun heq => hw' _ heq.symm

theorem progresses_of_moves (h : s.Progresses) (hok : s.retryable step)
    (hmoves : s.Moves step s') : s'.Progresses := by
  cases hmoves with
  | quiet now db callers hcallers => exact ⟨h.rows, h.selected⟩
  | @enqueue j key payload existing hcaller =>
    cases existing with
    | some id' =>
      refine ⟨fun id row => Dict.of_get?_modify h.rows fun row₀ hrow₀ => ?_, h.selected⟩
      rw [OutboxRow.attempts_join]
      exact h.rows id' row₀ hrow₀
    | none => exact ⟨fun id row => Dict.of_get?_set h.rows (Nat.zero_lt_succ 19), h.selected⟩
  | reclaim =>
    refine ⟨fun id row hrow => ?_, h.selected⟩
    obtain ⟨row₀, hrow₀, rfl⟩ :=
      Option.map_eq_some_iff.mp ((Table.get?_reclaim _ _ _).symm.trans hrow)
    rw [OutboxRow.attempts_reclaim]
    exact h.rows id row₀ hrow₀
  | @claim _ selected workers hrows hworkers =>
    have hselected : ∀ e ∈ selected, e.2 + 1 < maxAttempts := by
      intro e he
      rcases hrows e he with ⟨w, hw, rfl⟩ | htaken
      · exact h.selected selected hw e he
      · cases step with
        | enqueue => cases htaken
        | _ => exact of_decide_eq_true (List.all_eq_true.mp hok e htaken)
    refine ⟨fun id row hrow => attempts_claim h.rows hselected hrow, fun rows hmem => ?_⟩
    refine h.selected rows ?_
    rcases hworkers with rfl | ⟨i, -, rfl⟩
    · simpa using hmem
    · exact selected_of_mem_set hmem (by simp)
  | select limit =>
    refine ⟨h.rows, fun selected hmem e he => ?_⟩
    rcases List.mem_append.mp hmem with hold | hnew
    · exact h.selected selected hold e he
    · cases List.mem_singleton.mp hnew
      exact of_decide_eq_true (List.all_eq_true.mp hok e he)
  | work core hw hworks =>
    refine h.of_workers rfl fun selected hmem => selected_of_mem_set hmem ?_
    cases hworks <;> simp
  | finish hw htask hread =>
    refine ⟨fun id row => Dict.of_get?_modify h.rows fun row₀ hrow₀ => ?_, fun selected hmem =>
      h.selected selected (selected_of_mem_set hmem (by simp))⟩
    rw [attempts_finish]
    exact h.rows _ row₀ hrow₀
  | die hw => exact h.of_workers rfl fun selected hmem => selected_of_mem_set hmem (by simp)

theorem progresses_step (h : s.Progresses) (hok : s.retryable step)
    (hstep : s.step effects step = some s') : s'.Progresses := by
  obtain ⟨s₁, hmove, rfl⟩ := Option.map_eq_some_iff.mp hstep
  have hafter : s₁.Progresses := progresses_of_moves h hok (moves_of_move hmove)
  exact ⟨hafter.rows, hafter.selected⟩

theorem claimableLater_enqueue (hsound : s.Sound) (hs : s.Progresses) {j : Nat} {key : OutboxKey}
    {payload : Option P} {existing : Option Nat}
    (hcaller : s.callers[j]? = some (.found key payload existing))
    (hok : s.retryable (.enqueue j)) (hstep : s.step effects (.enqueue j) = some s') :
    ∃ id row, s'.rows.get? id = some row ∧ row.key = key ∧ s'.ClaimableLater id := by
  have hs' : s' = { s.enqueued j key payload existing with events := s.events + 1 } := by
    simp only [Outbox.step, move, hcaller, Option.map_some, Option.some.injEq] at hstep
    exact hstep.symm
  cases existing with
  | none =>
    have hrow : s'.rows.get? s.nextId = some (OutboxRow.new s.now key payload) := by
      rw [hs']
      exact (Dict.get?_set _ _ _ _).trans (if_pos rfl)
    exact ⟨s.nextId, _, hrow, rfl, claimableLater_of_attempts hrow rfl (Nat.zero_lt_succ _)⟩
  | some id =>
    obtain ⟨row, hrow, hkey⟩ := hsound.callers _ (List.mem_of_getElem? hcaller)
    simp only [retryable, hcaller, hrow] at hok
    have hrow' : s'.rows.get? id = some (row.join s.now payload) := by
      rw [hs']
      exact (Dict.get?_modify _ _ _ _).trans (by rw [if_pos rfl, hrow]; rfl)
    refine ⟨id, _, hrow', (row.key_join _ _).trans hkey, claimableLater_of_attempts hrow' ?_ ?_⟩
    · rw [OutboxRow.status_join]
      exact Bool.eq_false_iff.mpr (of_decide_eq_true hok)
    · rw [OutboxRow.attempts_join]
      exact hs.rows id row hrow

end Outbox

/-- **No row is stuck** in any run that meets `retryable`: every row that is not final is claimable
after some time and a `_reclaim_stale`, and so is the row that a call returns. -/
theorem outbox_not_stuck (effects : Effects P D C) (now : Int) (db : D) (core : C)
    (s : Outbox P D C)
    (hrun : Run (Outbox.step effects) (fun s step => s.retryable step)
      (Outbox.init now db core) s) :
    (∀ id row, s.rows.get? id = some row → row.status.isFinal = false → s.ClaimableLater id) ∧
    ∀ j key payload existing s', s.callers[j]? = some (.found key payload existing) →
      s.retryable (.enqueue j) → s.step effects (.enqueue j) = some s' →
      ∃ id row, s'.rows.get? id = some row ∧ row.key = key ∧ s'.ClaimableLater id := by
  have hinit : (Outbox.init now db core : Outbox P D C).Progresses := by
    refine ⟨fun id row hrow => ?_, fun selected hmem => ?_⟩
    · cases hrow
    · cases hmem
  have h : s.Sound ∧ s.Progresses := by
    refine hrun.invariant (fun s => s.Sound ∧ s.Progresses)
      ⟨(Outbox.tracks_init now db core).sound, hinit⟩ ?_
    intro s s' step hs hok hstep
    refine ⟨?_, Outbox.progresses_step hs.2 hok hstep⟩
    obtain ⟨s₁, hmove, rfl⟩ := Option.map_eq_some_iff.mp hstep
    exact (Outbox.sound_of_moves hs.1 (Outbox.moves_of_move hmove)).counted
  refine ⟨fun id row hrow hlive => ?_, ?_⟩
  · exact Outbox.claimableLater_of_attempts hrow hlive (h.2.rows id row hrow)
  · intro j key payload existing s' hcaller hok hstep
    exact Outbox.claimableLater_enqueue h.1 h.2 hcaller hok hstep

def diesOnce (i : Nat) : List (OutboxStep Unit Unit) :=
  [.claimPostgres [] 12, .die i, .tick 46, .reclaimStale]

theorem row_after_death_is_claimable :
    ∃ s, Outbox.after (fun s step => s.retryable step)
        ([.change () addUser none, .find 0 none, .enqueue 0] ++ diesOnce 0) = some s ∧
      s.ClaimableLater 1 := by
  have hrun : ∃ s row, Outbox.after (fun s step => s.retryable step)
      ([.change () addUser none, .find 0 none, .enqueue 0] ++ diesOnce 0) = some s ∧
      s.rows.get? 1 = some row ∧ row.status.isFinal = false := ⟨_, _, rfl, rfl, rfl⟩
  obtain ⟨s, row, hs, hrow, hlive⟩ := hrun
  exact ⟨s, hs, (outbox_not_stuck idle 0 () () s (Run.of_execGuarded _ hs)).1 1 row hrow hlive⟩

def diesOnEveryAttempt : List (OutboxStep Unit Unit) :=
  [.change () addUser none, .find 0 none, .enqueue 0] ++ (List.range 20).flatMap diesOnce ++
    [.change () addUser none, .find 1 (some 1), .enqueue 1]

/-- The row is pending for good, and the second call has joined it. -/
theorem row_is_stuck :
    ∃ s, Outbox.after (fun _ _ => True) diesOnEveryAttempt = some s ∧ s.rows.keys = [1] ∧
      s.returns.length = 2 ∧ (∀ w ∈ s.workers, w.held = []) ∧
      ∀ e ∈ s.rows.entries, e.2.status = .pending ∧
        ∀ now : Int, (e.2.reclaim now).claimable now = false := by
  have hrun : (Outbox.after (fun _ _ => True) diesOnEveryAttempt).any (fun s =>
      s.rows.keys = [1] ∧ s.returns.length = 2 ∧ (s.workers.all fun w => w.held.isEmpty) ∧
        s.rows.entries.all fun e => e.2.status = .pending ∧ e.2.attempts = 20) = true := by
    decide +kernel
  obtain ⟨s, hs, hstuck⟩ := (Option.any_eq_true _ _).mp hrun
  obtain ⟨hkeys, hreturns, hworkers, hrows⟩ := of_decide_eq_true hstuck
  refine ⟨s, hs, hkeys, hreturns, ?_, ?_⟩
  · intro w hw
    exact List.isEmpty_iff.mp (List.all_eq_true.mp hworkers w hw)
  · intro e he
    obtain ⟨hpending, hattempts⟩ := of_decide_eq_true (List.all_eq_true.mp hrows e he)
    refine ⟨hpending, fun now => decide_eq_false fun hclaimable => ?_⟩
    rw [OutboxRow.attempts_reclaim, hattempts] at hclaimable
    exact Nat.lt_irrefl _ hclaimable.2.2

end Shahkar.Sync
