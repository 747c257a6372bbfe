import Shahkar.Db.Models
import Shahkar.Sync.Delivery

/-!
# Draining converges to the database

One user and the panel's own core (`app/sync/hot_apply.py`, `app/sync/ack.py`). `disable` removes
the user whatever the status is by then, so one that is retried after a newer `add` undoes it.
-/

namespace Shahkar.Sync

open Shahkar.Db Shahkar.Lib

variable {P : Type}

/-!
### The user
-/

def hotApply : Effects P UserStatus Bool where
  apply
    | .add, _, seen, _ | .protocolChange, _, seen, _ => seen.billable
    | .disable, _, _, _ | .delete, _, _, _ => false
    | .quotaCap, _, seen, served => seen.billable || served
  confirm
    | .add, _, seen, served | .protocolChange, _, seen, served
    | .quotaCap, _, seen, served => seen.billable || served
    | .disable, _, _, _ | .delete, _, _, _ => false

def matching (status : UserStatus) (action : SyncAction) : Bool :=
  if status.billable then action = .add ∨ action = .protocolChange else action = .disable

def current (seen status : UserStatus) : SyncAction → Bool
  | .add | .protocolChange | .quotaCap => seen.billable = status.billable
  | .disable | .delete => ¬ status.billable

def Worker.hasActed {D : Type} : Worker P D → Bool
  | .applied _ _ | .confirming _ _ _ | .confirmed _ _ => true
  | _ => false

namespace Outbox

variable {s s' : Outbox P UserStatus Bool} {step : OutboxStep P UserStatus}

/-- Calls enqueue the action that goes with the status, and join no row that is done or applied. The
core is reached, and what is done to it is still right for the status in the database. -/
def converging (s : Outbox P UserStatus Bool) : OutboxStep P UserStatus → Bool
  | .change status key _ => matching status key.action
  | .enqueue j =>
    match s.callers[j]? with
    | some (.found _ _ (some id)) => ((s.rows.get? id).all fun row => row.status ≠ .done) ∧
        s.workers.all fun w => w.hasActed → w.task?.all fun task => task.id ≠ id
    | _ => true
  | .apply i reached =>
    match s.workers[i]? with
    | some (.applying task seen _) => reached ∧ current seen s.db task.key.action
    | _ => true
  | .confirm i reached =>
    match s.workers[i]? with
    | some (.confirming task seen _) => reached → current seen s.db task.key.action
    | _ => true
  | _ => true

def Quiescent (s : Outbox P UserStatus Bool) : Prop :=
  (∀ c ∈ s.callers, c = .returned) ∧ ∀ e ∈ s.rows.entries, e.2.status = .done

/-!
### Debts
-/

structure Owes (s : Outbox P UserStatus Bool) (id : Nat) (row : OutboxRow P) : Prop where
  found : s.rows.get? id = some row
  open_ : row.status ≠ .done
  acts : row.key.action ≠ .quotaCap
  unacted : ∀ w ∈ s.workers, w.hasActed → ∀ task, w.task? = some task → task.id ≠ id

def callerKey : Caller P → Option OutboxKey
  | .changed key _ | .found key _ _ => some key
  | .returned => none

def Settles (s : Outbox P UserStatus Bool) : Prop :=
  s.core = s.db.billable ∨ (∃ c ∈ s.callers, c ≠ .returned) ∨ ∃ id row, s.Owes id row

structure Converges (s : Outbox P UserStatus Bool) : Prop where
  sound : s.Sound
  acts : ∀ c ∈ s.callers, ∀ key, callerKey c = some key → key.action ≠ .quotaCap
  settles : s.Settles

section Owes

variable {id : Nat} {row : OutboxRow P}

theorem Owes.set (h : s.Owes id row) {i : Nat} {w' : Worker P UserStatus}
    (hrow : s'.rows.get? id = some row) (hworkers : s'.workers = s.workers.set i w')
    (hacted : w'.hasActed → ∀ task, w'.task? = some task → task.id ≠ id) : s'.Owes id row := by
  refine ⟨hrow, h.open_, h.acts, ?_⟩
  rw [hworkers]
  intro w₀ hw₀
  rcases List.mem_or_eq_of_mem_set hw₀ with hold | rfl
  · exact h.unacted w₀ hold
  · exact hacted

theorem Owes.moves (hsound : s.Sound) (h : s.Owes id row) (hmoves : s.Moves step s')
    (happly : ∀ i reached task seen rest, step = .apply i reached →
      s.workers[i]? = some (.applying task seen rest) → task.id ≠ id) :
    ∃ row', s'.Owes id row' := by
  cases hmoves with
  | quiet now db callers hcallers => exact ⟨row, h.found, h.open_, h.acts, h.unacted⟩
  | @enqueue j key payload existing hcaller =>
    cases existing with
    | some id' =>
      by_cases hid : id = id'
      · refine ⟨row.join s.now payload, ?_, ?_, ?_, h.unacted⟩
        · exact (Dict.get?_modify _ _ _ _).trans (by rw [if_pos hid, h.found]; rfl)
        · rw [OutboxRow.status_join]
          exact h.open_
        · rw [OutboxRow.key_join]
          exact h.acts
      · refine ⟨row, ?_, h.open_, h.acts, h.unacted⟩
        exact (Dict.get?_modify _ _ _ _).trans (by rw [if_neg hid, h.found])
    | none =>
      have hne : id ≠ s.nextId := Nat.ne_of_lt (hsound.ids id row h.found)
      refine ⟨row, ?_, h.open_, h.acts, h.unacted⟩
      exact (Dict.get?_set _ _ _ _).trans (by rw [if_neg hne, h.found])
  | reclaim =>
    refine ⟨row.reclaim s.now, ?_, ?_, ?_, h.unacted⟩
    · exact (Table.get?_reclaim _ _ _).trans (by rw [h.found]; rfl)
    · unfold OutboxRow.reclaim
      split
      · simp
      · exact h.open_
    · rw [OutboxRow.key_reclaim]
      exact h.acts
  | @claim _ selected workers hrows hworkers =>
    obtain ⟨row', hrow', hkey, hclaimed⟩ := Table.get?_claim_of_some s.now selected h.found
    refine ⟨row', hrow', ?_, by rw [hkey]; exact h.acts, ?_⟩
    · rcases hclaimed with rfl | ⟨hrunning, -⟩
      · exact h.open_
      · rw [hrunning]
        decide
    · intro w hw hacted
      have hmem : w ∈ s.workers ∨ w = .between (selected.map Prod.fst) := by
        rcases hworkers with rfl | ⟨i, -, rfl⟩
        · simpa using hw
        · exact List.mem_or_eq_of_mem_set hw
      rcases hmem with hold | rfl
      · exact h.unacted w hold hacted
      · cases hacted
  | select limit =>
    refine ⟨row, h.found, h.open_, h.acts, ?_⟩
    intro w hw hacted
    rcases List.mem_append.mp hw with hold | hnew
    · exact h.unacted w hold hacted
    · rw [List.mem_singleton.mp hnew] at hacted
      cases hacted
  | @work _ i w w' core hw hworks =>
    refine ⟨row, h.set h.found rfl ?_⟩
    have hunacted := h.unacted w (List.mem_of_getElem? hw)
    cases hworks with
    | load | skip | readForApply => exact fun hacted => by cases hacted
    | apply =>
      intro _ task htask
      cases htask
      exact happly _ _ _ _ _ rfl hw
    | readForConfirm | confirm => exact fun _ task htask => hunacted rfl task htask
  | @finish i w task ok jitter hw htask hok =>
    have hunacted := h.unacted w (List.mem_of_getElem? hw)
    by_cases hid : task.id = id
    · cases ok with
      | true =>
        obtain ⟨rest, rfl⟩ := hok rfl
        exact absurd hid (hunacted rfl task htask)
      | false =>
        have hopen : (row.finish s.now false jitter).status ≠ .done := by
          unfold OutboxRow.finish
          rw [if_neg Bool.false_ne_true]
          split <;> simp
        refine ⟨row.finish s.now false jitter, ?_, hopen, ?_, ?_⟩
        · exact (Dict.get?_modify _ _ _ _).trans (by rw [if_pos hid.symm, h.found]; rfl)
        · rw [OutboxRow.key_finish]
          exact h.acts
        · intro w₀ hw₀ hacted
          rcases List.mem_or_eq_of_mem_set hw₀ with hold | rfl
          · exact h.unacted w₀ hold hacted
          · cases hacted
    · refine ⟨row, h.set ?_ rfl fun hacted => by cases hacted⟩
      exact (Dict.get?_modify _ _ _ _).trans (by rw [if_neg (Ne.symm hid), h.found])
  | die hw => exact ⟨row, h.set h.found rfl fun hacted => by cases hacted⟩

end Owes

variable {seen status : UserStatus} {action : SyncAction} {payload : Option P} {reached : Bool}

theorem apply_of_current {served : Bool} (h : current seen status action)
    (hacts : action ≠ .quotaCap) :
    hotApply.apply action payload seen served = status.billable := by
  cases action with
  | add | protocolChange => exact of_decide_eq_true h
  | disable | delete => exact (Bool.eq_false_iff.mpr (of_decide_eq_true h)).symm
  | quotaCap => exact absurd rfl hacts

theorem effects_keep (h : current seen status action) :
    hotApply.apply action payload seen status.billable = status.billable ∧
      hotApply.confirm action payload seen status.billable = status.billable := by
  cases action with
  | add | protocolChange =>
    have hseen : seen.billable = status.billable := of_decide_eq_true h
    simp [hotApply, hseen]
  | disable | delete =>
    have hstatus : status.billable = false := Bool.eq_false_iff.mpr (of_decide_eq_true h)
    simp [hotApply, hstatus]
  | quotaCap =>
    have hseen : seen.billable = status.billable := of_decide_eq_true h
    simp [hotApply, hseen]

def internal {D : Type} : OutboxStep P D → Bool
  | .change _ _ _ | .find _ _ | .enqueue _ | .apply _ _ | .confirm _ _ => false
  | _ => true

theorem surroundings_of_move (hinternal : internal step) (hmove : s.move hotApply step = some s') :
    s'.db = s.db ∧ s'.core = s.core ∧ s'.callers = s.callers := by
  cases step with
  | change | find | enqueue | apply | confirm => cases hinternal
  | tick | reclaimStale | claimPostgres | selectGeneric =>
    cases hmove
    exact ⟨rfl, rfl, rfl⟩
  | claimGeneric i | readForApply i | readForConfirm i =>
    simp only [move] at hmove
    split at hmove
    · cases hmove
      exact ⟨rfl, rfl, rfl⟩
    · cases hmove
  | load i =>
    simp only [move] at hmove
    split at hmove
    · split at hmove <;> cases hmove <;> exact ⟨rfl, rfl, rfl⟩
    · cases hmove
  | finish i ok jitter =>
    obtain ⟨w, task, -, -, -, rfl⟩ := finish_of_move hmove
    exact ⟨rfl, rfl, rfl⟩
  | die i =>
    simp only [move] at hmove
    split at hmove
    · cases hmove
      exact ⟨rfl, rfl, rfl⟩
    · cases hmove

theorem settles_of_internal (h : s.Converges) (hinternal : internal step)
    (hmove : s.move hotApply step = some s') : s'.Settles := by
  obtain ⟨hdb, hcore, hcallers⟩ := surroundings_of_move hinternal hmove
  rcases h.settles with hright | hcall | ⟨id, row, howes⟩
  · exact .inl (by rw [hcore, hdb, hright])
  · exact .inr (.inl (hcallers ▸ hcall))
  · obtain ⟨row', howes'⟩ := howes.moves h.sound (moves_of_move hmove) (by
      intro i reached task seen rest hstep
      rw [hstep] at hinternal
      cases hinternal)
    exact .inr (.inr ⟨id, row', howes'⟩)

theorem settles_enqueue (h : s.Converges) {j : Nat} (hok : s.converging (.enqueue j))
    (hmove : s.move hotApply (.enqueue j) = some s') : s'.Settles := by
  simp only [move] at hmove
  split at hmove
  · next key payload existing hcaller =>
      have hmem := List.mem_of_getElem? hcaller
      have hacts : key.action ≠ .quotaCap := h.acts _ hmem key rfl
      cases hmove
      right; right
      cases existing with
      | none =>
        refine ⟨s.nextId, OutboxRow.new s.now key payload, ?_, by simp [OutboxRow.new], hacts, ?_⟩
        · exact (Dict.get?_set _ _ _ _).trans (if_pos rfl)
        · intro w hw _ task htask
          obtain ⟨row, hrow, -⟩ := (h.sound.workers w hw).task task htask
          exact Nat.ne_of_lt (h.sound.ids _ row hrow)
      | some id =>
        obtain ⟨row, hrow, hkey⟩ := h.sound.callers _ hmem
        simp only [converging, hcaller, hrow] at hok
        obtain ⟨hopen, hunacted⟩ := of_decide_eq_true hok
        refine ⟨id, row.join s.now payload, ?_, ?_, ?_, ?_⟩
        · exact (Dict.get?_modify _ _ _ _).trans (by rw [if_pos rfl, hrow]; rfl)
        · rw [OutboxRow.status_join]
          exact of_decide_eq_true hopen
        · rw [OutboxRow.key_join, hkey]
          exact hacts
        · intro w hw hacted task htask
          have hother := of_decide_eq_true (List.all_eq_true.mp hunacted w hw) hacted
          rw [htask] at hother
          exact of_decide_eq_true hother
  · cases hmove

theorem settles_apply (h : s.Converges) {i : Nat} (hok : s.converging (.apply i reached))
    (hmove : s.move hotApply (.apply i reached) = some s') : s'.Settles := by
  have hmoves := moves_of_move hmove
  simp only [move] at hmove
  split at hmove
  · next task seen rest hw =>
      simp only [converging, hw] at hok
      obtain ⟨hreached, hcurrent⟩ := of_decide_eq_true hok
      by_cases hquota : task.key.action = .quotaCap
      · -- it does not put the core right, and is not the application of an open row
        cases hmove
        rcases h.settles with hright | hcall | ⟨id, row, howes⟩
        · left
          show (if reached = true then _ else _) = s.db.billable
          rw [if_pos hreached, hright]
          exact (effects_keep hcurrent).1
        · exact .inr (.inl hcall)
        · obtain ⟨row', howes'⟩ := howes.moves h.sound hmoves (by
            intro i' reached' task' seen' rest' hstep hw'
            cases hstep
            obtain ⟨rfl, -, -⟩ := Worker.applying.inj (Option.some.inj (hw.symm.trans hw'))
            obtain ⟨row₀, hrow₀, hkey⟩ := (h.sound.workers _ (List.mem_of_getElem? hw)).task task rfl
            rintro rfl
            rw [Option.some.inj (hrow₀.symm.trans howes.found)] at hkey
            exact howes.acts (hkey ▸ hquota))
          exact .inr (.inr ⟨id, row', howes'⟩)
      · left
        cases hmove
        rw [if_pos hreached, apply_of_current hcurrent hquota]
  · cases hmove

theorem settles_confirm (h : s.Converges) {i : Nat} (hok : s.converging (.confirm i reached))
    (hmove : s.move hotApply (.confirm i reached) = some s') : s'.Settles := by
  have hmoves := moves_of_move hmove
  simp only [move] at hmove
  split at hmove
  · next task seen rest hw =>
      simp only [converging, hw] at hok
      have hcurrent := of_decide_eq_true hok
      cases hmove
      rcases h.settles with hright | hcall | ⟨id, row, howes⟩
      · left
        show (if reached = true then _ else _) = s.db.billable
        split
        · next hreached =>
            rw [hright]
            exact (effects_keep (hcurrent hreached)).2
        · exact hright
      · exact .inr (.inl hcall)
      · obtain ⟨row', howes'⟩ := howes.moves h.sound hmoves (fun _ _ _ _ _ hstep => by cases hstep)
        exact .inr (.inr ⟨id, row', howes'⟩)
  · cases hmove

theorem settles_of_move (h : s.Converges) (hok : s.converging step)
    (hmove : s.move hotApply step = some s') : s'.Settles := by
  cases step with
  | change db key payload =>
    cases hmove
    exact .inr (.inl ⟨.changed key payload, by simp, by simp⟩)
  | find j first =>
    simp only [move] at hmove
    split at hmove
    · next key payload hcaller =>
        split at hmove
        · cases hmove
          refine .inr (.inl ⟨.found key payload first, ?_, by simp⟩)
          exact List.mem_of_getElem?
            (List.getElem?_set_self (List.getElem?_eq_some_iff.mp hcaller).1)
        · cases hmove
    · cases hmove
  | enqueue j => exact settles_enqueue h hok hmove
  | apply i reached => exact settles_apply h hok hmove
  | confirm i reached => exact settles_confirm h hok hmove
  | tick | reclaimStale | claimPostgres | selectGeneric | claimGeneric | load | readForApply
  | readForConfirm | finish | die => exact settles_of_internal h rfl hmove

theorem acts_of_move (h : s.Converges) (hok : s.converging step)
    (hmove : s.move hotApply step = some s') :
    ∀ c ∈ s'.callers, ∀ key, callerKey c = some key → key.action ≠ .quotaCap := by
  have hset : ∀ (c₀ : Caller P) (j : Nat), (∀ key, callerKey c₀ = some key →
      key.action ≠ .quotaCap) → ∀ c ∈ s.callers.set j c₀, ∀ key, callerKey c = some key →
      key.action ≠ .quotaCap := by
    intro c₀ j hc₀ c hc
    rcases List.mem_or_eq_of_mem_set hc with hold | rfl
    · exact h.acts c hold
    · exact hc₀
  cases step with
  | change db key payload =>
    cases hmove
    intro c hc key' hkey'
    rcases List.mem_append.mp hc with hold | hnew
    · exact h.acts c hold key' hkey'
    · rw [List.mem_singleton.mp hnew] at hkey'
      cases hkey'
      have hmatching : matching db key.action = true := hok
      intro hquota
      rw [hquota] at hmatching
      unfold matching at hmatching
      split at hmatching <;> simp at hmatching
  | find j first =>
    simp only [move] at hmove
    split at hmove
    · next key payload hcaller =>
        split at hmove
        · cases hmove
          refine hset _ j fun key' hkey' => ?_
          cases hkey'
          exact h.acts _ (List.mem_of_getElem? hcaller) key rfl
        · cases hmove
    · cases hmove
  | enqueue j =>
    simp only [move] at hmove
    split at hmove
    · next key payload existing hcaller =>
        cases hmove
        have hreturned := hset .returned j fun key' hkey' => by cases hkey'
        cases existing <;> exact hreturned
    · cases hmove
  | apply i reached | confirm i reached =>
    simp only [move] at hmove
    split at hmove
    · cases hmove
      exact h.acts
    · cases hmove
  | tick | reclaimStale | claimPostgres | selectGeneric | claimGeneric | load | readForApply
  | readForConfirm | finish | die =>
    rw [(surroundings_of_move rfl hmove).2.2]
    exact h.acts

theorem converges_step (h : s.Converges) (hok : s.converging step)
    (hstep : s.step hotApply step = some s') : s'.Converges := by
  obtain ⟨s₁, hmove, rfl⟩ := Option.map_eq_some_iff.mp hstep
  have hacts := acts_of_move h hok hmove
  refine ⟨(sound_of_moves h.sound (moves_of_move hmove)).counted, hacts, ?_⟩
  rcases settles_of_move h hok hmove with hright | hcall | ⟨id, row, howes⟩
  · exact .inl hright
  · exact .inr (.inl hcall)
  · exact .inr (.inr ⟨id, row, howes.found, howes.open_, howes.acts, howes.unacted⟩)

end Outbox

/-- **Draining converges** in every run that meets `converging`. -/
theorem outbox_converges (now : Int) (status : UserStatus) (s : Outbox P UserStatus Bool)
    (hrun : Run (Outbox.step hotApply) (fun s step => s.converging step)
      (Outbox.init now status status.billable) s)
    (hquiet : s.Quiescent) : s.core = s.db.billable := by
  have h : s.Converges := by
    refine hrun.invariant Outbox.Converges ⟨(Outbox.tracks_init _ _ _).sound, ?_, .inl rfl⟩
      Outbox.converges_step
    intro c hc
    cases hc
  rcases h.settles with hright | ⟨c, hc, hopen⟩ | ⟨id, row, howes⟩
  · exact hright
  · exact absurd (hquiet.1 c hc) hopen
  · exact absurd (hquiet.2 _ (Dict.get?_eq_some_iff.mp howes.found)) howes.open_

def forUser (action : SyncAction) : OutboxKey := ⟨some 1, action, "all", none⟩

def Outbox.afterFor (ok : Outbox Unit UserStatus Bool → OutboxStep Unit UserStatus → Prop)
    [∀ s step, Decidable (ok s step)] (steps : List (OutboxStep Unit UserStatus)) :
    Option (Outbox Unit UserStatus Bool) :=
  execGuarded (Outbox.step hotApply) ok (Outbox.init 0 .active true) steps

def applies (i : Nat) (reached : Bool) : List (OutboxStep Unit UserStatus) :=
  [.claimPostgres [] 12, .load i, .readForApply i, .apply i reached, .readForConfirm i,
    .confirm i reached, .finish i true 0]

def changes (j : Nat) (status : UserStatus) (action : SyncAction) :
    List (OutboxStep Unit UserStatus) :=
  [.change status (forUser action) none, .find j none, .enqueue j]

theorem changes_in_turn_converge :
    ∃ s, Outbox.afterFor (fun s step => s.converging step)
        (changes 0 .disabled .disable ++ applies 0 true ++ changes 1 .active .add ++
          applies 1 true) = some s ∧ s.Quiescent ∧ s.core = s.db.billable := by
  have hrun : ∃ s, Outbox.afterFor (fun s step => s.converging step)
      (changes 0 .disabled .disable ++ applies 0 true ++ changes 1 .active .add ++
        applies 1 true) = some s ∧ s.callers = [.returned, .returned] ∧
      (s.rows.entries.map fun e => e.2.status) = [.done, .done] := ⟨_, rfl, rfl, rfl⟩
  obtain ⟨s, hs, hcallers, hrows⟩ := hrun
  have hquiet : s.Quiescent := by
    refine ⟨by simp [hcallers], fun e he => ?_⟩
    have hmem := List.mem_map_of_mem (f := fun e : Nat × OutboxRow Unit => e.2.status) he
    rw [hrows] at hmem
    simpa using hmem
  exact ⟨s, hs, hquiet, outbox_converges 0 .active s (Run.of_execGuarded _ hs) hquiet⟩

/-- A retried `disable` overtakes an `add`, or does not reach the core. -/
theorem late_disable_wins : (Outbox.afterFor (fun _ _ => True)
      (changes 0 .disabled .disable ++
        [.claimPostgres [] 12, .load 0, .readForApply 0, .finish 0 false 0] ++
        changes 1 .active .add ++ applies 1 true ++ [.tick 10] ++ applies 2 true)).any (fun s =>
      (s.rows.entries.map fun e => e.2.status) = [.done, .done] ∧ s.db = .active ∧ s.core = false)
      = true ∧
    (Outbox.afterFor (fun _ _ => True) (changes 0 .disabled .disable ++ applies 0 false)).any
      (fun s => (s.rows.entries.map fun e => e.2.status) = [.done] ∧ s.db = .disabled ∧
        s.core = true) = true := by
  decide

end Shahkar.Sync
