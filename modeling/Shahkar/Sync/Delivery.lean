import Shahkar.Sync.Outbox

/-!
# No change is lost

`enqueue` joins a row that is `pending` or `running`. If a worker has already read that row, its
`finish` marks the row `done`, and nobody goes to the database again for the change.
-/

namespace Shahkar.Sync

open Shahkar.Lib

variable {P D C : Type}

/-!
### Rows over time
-/

namespace Table

theorem get?_claim (now : Int) (selected : List (Nat × Nat)) (rows : Table P) (id : Nat) :
    (rows.claim now selected).get? id = (rows.get? id).map fun row =>
      (onKey id selected).foldl (fun row e => OutboxRow.claim now e.2 row) row :=
  Dict.get?_foldl_modify (OutboxRow.claim now) selected rows id

theorem get?_reclaim (now : Int) (rows : Table P) (id : Nat) :
    (rows.reclaim now).get? id = (rows.get? id).map (OutboxRow.reclaim now) :=
  Dict.get?_mapVal _ _ _

theorem get?_claim_of_some (now : Int) (selected : List (Nat × Nat)) {rows : Table P} {id : Nat}
    {row : OutboxRow P} (h : rows.get? id = some row) :
    ∃ row', (rows.claim now selected).get? id = some row' ∧ row'.key = row.key ∧
      (row' = row ∨ (row'.status = .running ∧ id ∈ selected.map Prod.fst)) := by
  have hkeeps : ∀ (l : List (Nat × Nat)) (r : OutboxRow P), r.key = row.key → r.status = .running →
      (l.foldl (fun row e => OutboxRow.claim now e.2 row) r).key = row.key ∧
        (l.foldl (fun row e => OutboxRow.claim now e.2 row) r).status = .running := by
    intro l
    induction l with
    | nil => exact fun r hkey hstatus => ⟨hkey, hstatus⟩
    | cons e rest ih => exact fun r hkey _ => ih _ hkey rfl
  rw [get?_claim, h]
  refine ⟨_, rfl, ?_⟩
  cases hsel : onKey id selected with
  | nil => exact ⟨rfl, .inl rfl⟩
  | cons e rest =>
    have hafter := hkeeps rest (OutboxRow.claim now e.2 row) rfl rfl
    have hmem : e ∈ onKey id selected := hsel ▸ List.mem_cons_self
    refine ⟨hafter.1, .inr ⟨hafter.2, ?_⟩⟩
    obtain ⟨hin, hkey⟩ := List.mem_filter.mp hmem
    exact List.mem_map.mpr ⟨e, hin, of_decide_eq_true hkey⟩

end Table

namespace OutboxRow

variable (now : Int) (row : OutboxRow P)

@[simp] theorem key_join (payload : Option P) : (row.join now payload).key = row.key := by
  unfold join
  split <;> rfl

@[simp] theorem status_join (payload : Option P) : (row.join now payload).status = row.status := by
  unfold join
  split <;> rfl

@[simp] theorem attempts_join (payload : Option P) :
    (row.join now payload).attempts = row.attempts := by
  unfold join
  split <;> rfl

@[simp] theorem key_reclaim : (row.reclaim now).key = row.key := by
  unfold reclaim
  split <;> rfl

@[simp] theorem attempts_reclaim : (row.reclaim now).attempts = row.attempts := by
  unfold reclaim
  split <;> rfl

@[simp] theorem isFinal_reclaim : (row.reclaim now).status.isFinal = row.status.isFinal := by
  unfold reclaim
  split
  · next h => simp [h.1, OutboxStatus.isFinal]
  · rfl

@[simp] theorem key_finish (ok : Bool) (jitter : Int) :
    (row.finish now ok jitter).key = row.key := by
  unfold finish
  split_ifs <;> rfl

end OutboxRow

namespace Outbox

variable {s s' : Outbox P D C} {step : OutboxStep P D}

structure Grows (s s' : Outbox P D C) : Prop where
  nextId : s.nextId ≤ s'.nextId
  rows : ∀ id row, s.rows.get? id = some row →
    ∃ row', s'.rows.get? id = some row' ∧ row'.key = row.key
  reads : ∀ e ∈ s.reads, e ∈ s'.reads
  deaths : ∀ e ∈ s.deaths, e ∈ s'.deaths

theorem Grows.of_rows (hnext : s.nextId ≤ s'.nextId) (hrows : ∀ id row, s.rows.get? id = some row →
      ∃ row', s'.rows.get? id = some row' ∧ row'.key = row.key)
    (hreads : s'.reads = s.reads) (hdeaths : s'.deaths = s.deaths) : s.Grows s' :=
  ⟨hnext, hrows, fun _ he => hreads ▸ he, fun _ he => hdeaths ▸ he⟩

variable {w : Worker P D} {key : OutboxKey} {id : Nat}

theorem grows_modify {rows : Table P} {f : OutboxRow P → OutboxRow P}
    (hf : ∀ row, (f row).key = row.key) (id' : Nat) (row : OutboxRow P)
    (h : rows.get? id' = some row) :
    ∃ row', (rows.modify id f).get? id' = some row' ∧ row'.key = row.key := by
  rw [Dict.get?_modify, h]
  split_ifs
  · exact ⟨_, rfl, hf row⟩
  · exact ⟨row, rfl, rfl⟩

def FreshIds (s : Outbox P D C) : Prop :=
  ∀ id row, s.rows.get? id = some row → id < s.nextId

theorem grows_of_moves (hfresh : s.FreshIds) (h : s.Moves step s') : s.Grows s' := by
  have hkept : ∀ id row, s.rows.get? id = some row →
      ∃ row', s.rows.get? id = some row' ∧ row'.key = row.key := fun _ row hrow => ⟨row, hrow, rfl⟩
  cases h with
  | quiet now db callers hcallers => exact .of_rows (Nat.le_refl _) hkept rfl rfl
  | @enqueue j key payload existing hcaller =>
    cases existing with
    | some id =>
      exact .of_rows (Nat.le_refl _) (grows_modify fun row => row.key_join _ payload) rfl rfl
    | none =>
      refine .of_rows (Nat.le_succ _) ?_ rfl rfl
      intro id row hrow
      have hne : id ≠ s.nextId := Nat.ne_of_lt (hfresh id row hrow)
      exact ⟨row, (Dict.get?_set _ _ _ _).trans (by rw [if_neg hne, hrow]), rfl⟩
  | reclaim =>
    refine .of_rows (Nat.le_refl _) ?_ rfl rfl
    intro id row hrow
    exact ⟨_, (Table.get?_reclaim _ _ _).trans (by rw [hrow]; rfl), row.key_reclaim _⟩
  | claim selected hrows hworkers =>
    refine .of_rows (Nat.le_refl _) ?_ rfl rfl
    intro id row hrow
    obtain ⟨row', hrow', hkey, -⟩ := Table.get?_claim_of_some s.now selected hrow
    exact ⟨row', hrow', hkey⟩
  | select limit => exact .of_rows (Nat.le_refl _) hkept rfl rfl
  | @work _ i w w' core hw hworks =>
    refine ⟨Nat.le_refl _, hkept, ?_, fun _ he => he⟩
    intro e he
    unfold readsAfter
    split
    · exact List.mem_cons_of_mem _ he
    · exact he
  | finish hw htask hok =>
    refine ⟨Nat.le_refl _, grows_modify fun row => row.key_finish _ _ _, fun _ he => he, ?_⟩
    intro e he
    show e ∈ ite _ _ _
    split
    · exact List.mem_cons_of_mem _ he
    · exact he
  | die hw => exact .of_rows (Nat.le_refl _) hkept rfl rfl

def claims : Worker P D → List Nat
  | .selected rows => rows.map Prod.fst
  | w => w.held

theorem claims_of_task {task : Task P} (h : w.task? = some task) :
    claims w = w.held := by
  cases w with
  | selected rows => cases h
  | _ => rfl

structure SoundWorker (s : Outbox P D C) (w : Worker P D) : Prop where
  claims : ∀ id ∈ claims w, id < s.nextId
  task : ∀ task, w.task? = some task →
    ∃ row, s.rows.get? task.id = some row ∧ row.key = task.key
  read : w.hasRead → ∀ task, w.task? = some task → (task.key, task.loadedAt) ∈ s.reads

structure Sound (s : Outbox P D C) : Prop where
  ids : s.FreshIds
  workers : ∀ w ∈ s.workers, s.SoundWorker w
  callers : ∀ c ∈ s.callers, s.SoundCaller c

theorem SoundCaller.mono {c : Caller P} (h : s.SoundCaller c) (hgrows : s.Grows s') :
    s'.SoundCaller c := by
  cases c with
  | found key payload existing =>
    cases existing with
    | none => trivial
    | some id =>
      obtain ⟨row, hrow, hkey⟩ := h
      obtain ⟨row', hrow', hkey'⟩ := hgrows.rows id row hrow
      exact ⟨row', hrow', hkey'.trans hkey⟩
  | changed key payload | returned => trivial

theorem SoundWorker.mono (h : s.SoundWorker w) (hgrows : s.Grows s') :
    s'.SoundWorker w := by
  refine ⟨?_, ?_, ?_⟩
  · intro id hid
    exact Nat.lt_of_lt_of_le (h.claims id hid) hgrows.nextId
  · intro task htask
    obtain ⟨row, hrow, hkey⟩ := h.task task htask
    obtain ⟨row', hrow', hkey'⟩ := hgrows.rows _ row hrow
    exact ⟨row', hrow', hkey'.trans hkey⟩
  · intro hread task htask
    exact hgrows.reads _ (h.read hread task htask)

theorem soundWorker_of_claims (htask : w.task? = none)
    (hclaims : ∀ id ∈ claims w, id < s.nextId) : s.SoundWorker w := by
  have hnone : ∀ task, w.task? ≠ some task := fun task h => by simp [htask] at h
  exact ⟨hclaims, fun task h => absurd h (hnone task), fun _ task h => absurd h (hnone task)⟩

theorem soundWorker_works {i : Nat} {w w' : Worker P D} (h : s.SoundWorker w)
    (hworks : s.Works i step w w') {s' : Outbox P D C} (hrows : s'.rows = s.rows)
    (hnext : s'.nextId = s.nextId) (hreads : s'.reads = s.readsAfter w') : s'.SoundWorker w' := by
  cases hworks with
  | load hrow =>
    refine ⟨?_, ?_, fun hread => by cases hread⟩
    · intro id hid
      exact hnext ▸ h.claims id hid
    · intro task htask
      cases htask
      exact ⟨_, hrows ▸ hrow, rfl⟩
  | skip hrow =>
    refine soundWorker_of_claims rfl fun id hid => ?_
    exact hnext ▸ h.claims id (List.mem_cons_of_mem _ hid)
  | readForApply =>
    refine ⟨fun id hid => hnext ▸ h.claims id hid, fun task htask => hrows ▸ h.task task htask, ?_⟩
    intro _ task htask
    cases htask
    rw [hreads]
    exact List.mem_cons_self
  | apply | readForConfirm | confirm =>
    exact ⟨fun id hid => hnext ▸ h.claims id hid, fun task htask => hrows ▸ h.task task htask,
      fun _ task htask => hreads ▸ h.read rfl task htask⟩

theorem get?_of_moves {row' : OutboxRow P} (hmoves : s.Moves step s')
    (hrow : s'.rows.get? id = some row') :
    (∃ row, s.rows.get? id = some row) ∨ (id = s.nextId ∧ s'.nextId = s.nextId + 1) := by
  have hmodify : ∀ {id' f}, (s.rows.modify id' f).get? id = some row' →
      ∃ row, s.rows.get? id = some row := by
    intro id' f h
    exact Dict.of_get?_modify (P := fun id _ => ∃ row, s.rows.get? id = some row)
      (fun _ row hrow => ⟨row, hrow⟩) (fun row hrow => ⟨row, hrow⟩) h
  cases hmoves with
  | quiet now db callers hcallers => exact .inl ⟨row', hrow⟩
  | @enqueue j key payload existing hcaller =>
    cases existing with
    | some id' => exact .inl (hmodify hrow)
    | none =>
      have hset := (Dict.get?_set _ _ _ _).symm.trans hrow
      split_ifs at hset with hid
      · exact .inr ⟨hid, rfl⟩
      · exact .inl ⟨row', hset⟩
  | reclaim =>
    obtain ⟨row, hold, -⟩ := Option.map_eq_some_iff.mp ((Table.get?_reclaim _ _ _).symm.trans hrow)
    exact .inl ⟨row, hold⟩
  | claim selected hrows hworkers =>
    obtain ⟨row, hold, -⟩ :=
      Option.map_eq_some_iff.mp ((Table.get?_claim _ _ _ _).symm.trans hrow)
    exact .inl ⟨row, hold⟩
  | select limit => exact .inl ⟨row', hrow⟩
  | work core hw hworks => exact .inl ⟨row', hrow⟩
  | finish hw htask hok => exact .inl (hmodify hrow)
  | die hw => exact .inl ⟨row', hrow⟩

theorem freshIds_of_moves (h : s.FreshIds) (hmoves : s.Moves step s') : s'.FreshIds := by
  intro id row' hrow'
  rcases get?_of_moves hmoves hrow' with ⟨row, hrow⟩ | ⟨rfl, hnext⟩
  · exact Nat.lt_of_lt_of_le (h id row hrow) (grows_of_moves h hmoves).nextId
  · rw [hnext]
    exact Nat.lt_succ_self _

theorem claims_select (hfresh : s.FreshIds) {locked : List Nat} {limit : Nat}
    (hid : id ∈ (s.rows.select s.now locked limit).map Prod.fst) : id < s.nextId := by
  obtain ⟨e, he, rfl⟩ := List.mem_map.mp hid
  obtain ⟨row, hrow, -⟩ := (Option.any_eq_true _ _).mp (claimable_of_mem_select he)
  exact hfresh e.1 row hrow

theorem soundCallers_of_moves (h : s.Sound) (hmoves : s.Moves step s') :
    ∀ c ∈ s'.callers, s'.SoundCaller c := by
  have hgrows := grows_of_moves h.ids hmoves
  have hold : ∀ c ∈ s.callers, s'.SoundCaller c := fun c hc => (h.callers c hc).mono hgrows
  cases hmoves with
  | quiet now db callers hcallers =>
    intro c hc
    rcases hcallers c hc with hmem | hsound
    · exact hold c hmem
    · exact hsound.mono hgrows
  | @enqueue j key payload existing hcaller =>
    have hset : ∀ c ∈ s.callers.set j .returned,
        (s.enqueued j key payload existing).SoundCaller c := by
      intro c hc
      rcases List.mem_or_eq_of_mem_set hc with hmem | rfl
      · exact hold c hmem
      · trivial
    cases existing <;> exact hset
  | reclaim | claim | select | work | finish | die => exact hold

theorem sound_of_moves (h : s.Sound) (hmoves : s.Moves step s') : s'.Sound := by
  have hgrows := grows_of_moves h.ids hmoves
  have hold : ∀ w ∈ s.workers, s'.SoundWorker w := fun w hw => (h.workers w hw).mono hgrows
  have hset : ∀ (i : Nat) (w' : Worker P D), s'.SoundWorker w' →
      ∀ w ∈ s.workers.set i w', s'.SoundWorker w := by
    intro i w' hw' w hw
    rcases List.mem_or_eq_of_mem_set hw with hmem | rfl
    · exact hold w hmem
    · exact hw'
  have happend : ∀ w' : Worker P D, s'.SoundWorker w' →
      ∀ w ∈ s.workers ++ [w'], s'.SoundWorker w := by
    intro w' hw' w hw
    rcases List.mem_append.mp hw with hmem | hmem
    · exact hold w hmem
    · exact List.mem_singleton.mp hmem ▸ hw'
  refine ⟨freshIds_of_moves h.ids hmoves, ?_, soundCallers_of_moves h hmoves⟩
  cases hmoves with
  | quiet now db callers hcallers => exact hold
  | @enqueue j key payload existing hcaller =>
    cases existing <;> exact hold
  | reclaim => exact hold
  | claim selected hrows hworkers =>
    have hclaims : ∀ id ∈ selected.map Prod.fst, id < s.nextId := by
      intro id hid
      obtain ⟨e, he, rfl⟩ := List.mem_map.mp hid
      rcases hrows e he with ⟨w, hw, rfl⟩ | hdue
      · exact (h.workers _ hw).claims e.1 hid
      · obtain ⟨row, hrow, -⟩ := (Option.any_eq_true _ _).mp (claimable_of_mem_taken hdue)
        exact h.ids e.1 row hrow
    rcases hworkers with rfl | ⟨i, -, rfl⟩
    · exact happend _ (soundWorker_of_claims rfl hclaims)
    · exact hset i _ (soundWorker_of_claims rfl hclaims)
  | select limit =>
    exact happend _ (soundWorker_of_claims rfl fun id hid => claims_select h.ids hid)
  | @work _ i w w' core hw hworks =>
    have hsound := h.workers w (List.mem_of_getElem? hw)
    exact hset i w' (soundWorker_works hsound hworks rfl rfl rfl)
  | @finish i w task ok jitter hw htask hok =>
    have hsound := h.workers w (List.mem_of_getElem? hw)
    refine hset i _ (soundWorker_of_claims rfl fun id hid => hsound.claims id ?_)
    rw [claims_of_task htask]
    exact List.mem_append_right _ hid
  | @die i w hw => exact hset i _ (soundWorker_of_claims rfl fun id hid => by cases hid)

structure Coming (s : Outbox P D C) (t id : Nat) (row : OutboxRow P) : Prop where
  found : s.rows.get? id = some row
  live : row.status.isFinal = false
  unread : ∀ w ∈ s.workers, ∀ task, w.task? = some task → task.id = id → t < task.loadedAt
  due : row.attempts < maxAttempts ∨ ∃ w ∈ s.workers, id ∈ w.held

def Kept (s : Outbox P D C) (key : OutboxKey) (t : Nat) : Prop :=
  (∃ n, t < n ∧ (key, n) ∈ s.reads) ∨ (∃ n, t < n ∧ (key, n) ∈ s.deaths) ∨
    ∃ id row, row.key = key ∧ s.Coming t id row

def Delivers (s : Outbox P D C) : Prop := ∀ e ∈ s.returns, s.Kept e.1 e.2

def unread (s : Outbox P D C) (id : Nat) : Bool :=
  s.workers.all fun w => w.task?.all fun task => task.id ≠ id

def diesInTime (s : Outbox P D C) (i : Nat) : Bool :=
  s.workers[i]?.all fun w => w.held.all fun id =>
    (s.rows.get? id).all fun row => row.attempts < maxAttempts

/-- `enqueue` joins a row that nobody has read yet and that will be read; and a worker does not die
on a last attempt. -/
def undisturbed (s : Outbox P D C) : OutboxStep P D → Bool
  | .enqueue j =>
    match s.callers[j]? with
    | some (.found _ _ (some id)) => s.unread id ∧ (s.rows.get? id).any fun row =>
      ¬ row.status.isFinal ∧
        (row.attempts < maxAttempts ∨ s.workers.any fun w => w.held.contains id)
    | _ => true
  | .die i => s.diesInTime i
  | _ => true

section Coming

variable {t id : Nat} {row : OutboxRow P}

variable {i : Nat} {w w' : Worker P D}

theorem mem_set_of_ne {w w₀ w' : Worker P D} {l : List (Worker P D)} (hw : l[i]? = some w)
    (hw₀ : w₀ ∈ l) : w₀ = w ∨ w₀ ∈ l.set i w' := by
  obtain ⟨n, hn⟩ := List.mem_iff_getElem?.mp hw₀
  by_cases hi : i = n
  · subst hi
    exact .inl (Option.some.inj (hn.symm.trans hw))
  · right
    refine List.mem_iff_getElem?.mpr ⟨n, ?_⟩
    rw [List.getElem?_set_ne hi, hn]

theorem Coming.of_row (h : s.Coming t id row) {row' : OutboxRow P}
    (hrow : s'.rows.get? id = some row') (hlive : row'.status.isFinal = false)
    (hattempts : row'.attempts = row.attempts) (hworkers : s'.workers = s.workers) :
    s'.Coming t id row' :=
  ⟨hrow, hlive, hworkers ▸ h.unread, hattempts ▸ hworkers ▸ h.due⟩

theorem Coming.of_worker (h : s.Coming t id row) (hrow : s'.rows.get? id = some row)
    (hworkers : s'.workers = s.workers.set i w') (hw : s.workers[i]? = some w)
    (htask : ∀ task, w'.task? = some task → task.id = id → t < task.loadedAt)
    (hheld : id ∈ w.held → id ∈ w'.held ∨ row.attempts < maxAttempts) : s'.Coming t id row := by
  refine ⟨hrow, h.live, ?_, ?_⟩
  · rw [hworkers]
    intro w₀ hw₀
    rcases List.mem_or_eq_of_mem_set hw₀ with hmem | rfl
    · exact h.unread w₀ hmem
    · exact htask
  · rcases h.due with hattempts | ⟨w₀, hw₀, hid⟩
    · exact .inl hattempts
    · have hset : w₀ = w ∨ w₀ ∈ s.workers.set i w' := mem_set_of_ne hw hw₀
      rcases hset with rfl | hmem
      · refine (hheld hid).symm.imp_right fun hid' => ⟨w', ?_, hid'⟩
        rw [hworkers]
        exact List.mem_of_getElem? (List.getElem?_set_self (List.getElem?_eq_some_iff.mp hw).1)
      · exact .inr ⟨w₀, hworkers ▸ hmem, hid⟩

theorem Coming.works (h : s.Coming t id row) (ht : t < s.events) (hworks : s.Works i step w w')
    (hrow : s'.rows.get? id = some row) (hworkers : s'.workers = s.workers.set i w')
    (hw : s.workers[i]? = some w) :
    s'.Coming t id row := by
  have hunread := h.unread w (List.mem_of_getElem? hw)
  refine h.of_worker hrow hworkers hw ?_ ?_
  · cases hworks with
    | load hload =>
      intro task htask _
      cases htask
      exact ht
    | skip hskip => exact fun task htask => by cases htask
    | readForApply | apply | readForConfirm | confirm => exact hunread
  · intro hid
    cases hworks with
    | @skip id' rest hskip =>
      -- the row of the batch is gone, so it is another one
      have hne : id ≠ id' := by
        rintro rfl
        rw [h.found] at hskip
        cases hskip
      exact .inl ((List.mem_cons.mp hid).resolve_left hne)
    | load | readForApply | apply | readForConfirm | confirm => exact .inl hid

theorem Coming.claim (h : s.Coming t id row) {selected : List (Nat × Nat)}
    {workers : List (Worker P D)}
    (hworkers : workers = s.workers ++ [.between (selected.map Prod.fst)] ∨
      ∃ i, s.workers[i]? = some (.selected selected) ∧
        workers = s.workers.set i (.between (selected.map Prod.fst))) :
    ∃ row', row'.key = row.key ∧
      Coming { s with rows := s.rows.claim s.now selected, workers := workers } t id row' := by
  obtain ⟨row', hrow', hkey, hclaimed⟩ := Table.get?_claim_of_some s.now selected h.found
  have hmem : ∀ w ∈ workers, w ∈ s.workers ∨ w = .between (selected.map Prod.fst) := by
    intro w hw
    rcases hworkers with rfl | ⟨i, -, rfl⟩
    · simpa using hw
    · exact List.mem_or_eq_of_mem_set hw
  have hnew : Worker.between (selected.map Prod.fst) ∈ workers := by
    rcases hworkers with rfl | ⟨i, hi, rfl⟩
    · exact List.mem_append_right _ List.mem_cons_self
    · exact List.mem_of_getElem? (List.getElem?_set_self (List.getElem?_eq_some_iff.mp hi).1)
  refine ⟨row', hkey, hrow', ?_, ?_, ?_⟩
  · rcases hclaimed with rfl | ⟨hrunning, -⟩
    · exact h.live
    · rw [hrunning]
      rfl
  · intro w hw task htask
    rcases hmem w hw with hold | rfl
    · exact h.unread w hold task htask
    · cases htask
  · rcases hclaimed with rfl | ⟨-, hselected⟩
    · refine h.due.imp_right ?_
      rintro ⟨w, hw, hid⟩
      rcases hworkers with rfl | ⟨i, hi, rfl⟩
      · exact ⟨w, List.mem_append_left _ hw, hid⟩
      · rcases mem_set_of_ne hi hw with rfl | hmem
        · cases hid
        · exact ⟨w, hmem, hid⟩
    · exact .inr ⟨_, hnew, hselected⟩

theorem Coming.finish (hsound : s.Sound) (h : s.Coming t id row) (ht : t < s.events)
    {w : Worker P D} {task : Task P} {ok : Bool} {jitter : Int} (hw : s.workers[i]? = some w)
    (htask : w.task? = some task) (hok : ok = true → ∃ rest, w = .confirmed task rest) :
    (s.finished i task w.waiting ok jitter).Kept row.key t := by
  have hmem := List.mem_of_getElem? hw
  have hheld : w.held = task.id :: w.waiting := by
    unfold Worker.held
    rw [htask]
    rfl
  by_cases hid : task.id = id
  · have hloaded : t < task.loadedAt := h.unread w hmem task htask hid
    obtain ⟨row', hrow', hkey⟩ := (hsound.workers w hmem).task task htask
    obtain rfl : row' = row := Option.some.inj (hrow'.symm.trans (hid ▸ h.found))
    cases ok with
    | true =>
      obtain ⟨rest, rfl⟩ := hok rfl
      have hread := (hsound.workers _ hmem).read rfl task htask
      exact .inl ⟨task.loadedAt, hloaded, hkey ▸ hread⟩
    | false =>
      by_cases hdead : maxAttempts ≤ row'.attempts
      · refine .inr (.inl ⟨s.events, ht, ?_⟩)
        show _ ∈ ite _ _ _
        rw [if_pos (by simp [hrow', hdead]), hkey]
        exact List.mem_cons_self
      · -- it has failed, and has attempts left
        have hfailed : row'.finish s.now false jitter = { row' with
            status := .failed
            updatedAt := s.now
            nextRetryAt := some (OutboxRow.backoff s.now row'.attempts jitter) } := if_neg hdead
        refine .inr (.inr ⟨id, row'.finish s.now false jitter, row'.key_finish _ _ _, ?_⟩)
        refine ⟨?_, by rw [hfailed]; rfl, ?_, .inl (by rw [hfailed]; exact Nat.lt_of_not_le hdead)⟩
        · exact (Dict.get?_modify _ _ _ _).trans (by rw [if_pos hid.symm, h.found]; rfl)
        · intro w₀ hw₀ task' htask'
          rcases List.mem_or_eq_of_mem_set hw₀ with hold | rfl
          · exact h.unread w₀ hold task' htask'
          · cases htask'
  · refine .inr (.inr ⟨id, row, rfl, h.of_worker ?_ rfl hw ?_ ?_⟩)
    · exact (Dict.get?_modify _ _ _ _).trans (by rw [if_neg (Ne.symm hid), h.found])
    · exact fun task' htask' => by cases htask'
    · intro hin
      rw [hheld] at hin
      exact .inl ((List.mem_cons.mp hin).resolve_left (Ne.symm hid))

end Coming

theorem Kept.of_coming {t : Nat} (h : s.Kept key t) (hgrows : s.Grows s')
    (hcoming : ∀ id row, row.key = key → s.Coming t id row → s'.Kept key t) : s'.Kept key t := by
  rcases h with ⟨n, hn, hread⟩ | ⟨n, hn, hdeath⟩ | ⟨id, row, hkey, hrow⟩
  · exact .inl ⟨n, hn, hgrows.reads _ hread⟩
  · exact .inr (.inl ⟨n, hn, hgrows.deaths _ hdeath⟩)
  · exact hcoming id row hkey hrow

theorem coming_of_diesInTime {t id i : Nat} {row : OutboxRow P} (h : s.Coming t id row)
    (hw : s.workers[i]? = some w) (hdies : s.diesInTime i) :
    Coming { s with workers := s.workers.set i .gone } t id row := by
  refine h.of_worker h.found rfl hw (fun task htask => by cases htask) fun hid => .inr ?_
  unfold diesInTime at hdies
  rw [hw, Option.all_some, List.all_eq_true] at hdies
  have hrow := hdies id hid
  rw [h.found] at hrow
  exact of_decide_eq_true hrow

theorem Kept.moves (hsound : s.Sound) {t : Nat} (ht : t < s.events) (h : s.Kept key t)
    (hok : s.undisturbed step) (hmoves : s.Moves step s') : s'.Kept key t := by
  have hgrows := grows_of_moves hsound.ids hmoves
  refine h.of_coming hgrows fun id row hkey hrow => ?_
  subst hkey
  have hstill : ∀ {row' : OutboxRow P}, row'.key = row.key → s'.Coming t id row' →
      s'.Kept row.key t := fun hkey hcoming => .inr (.inr ⟨id, _, hkey, hcoming⟩)
  cases hmoves with
  | quiet now db callers hcallers => exact hstill rfl (hrow.of_row hrow.found hrow.live rfl rfl)
  | @enqueue j key payload existing hcaller =>
    cases existing with
    | some id' =>
      by_cases hid : id = id'
      · refine hstill (row.key_join s.now payload)
          (hrow.of_row ?_ (by rw [OutboxRow.status_join]; exact hrow.live)
            (row.attempts_join s.now payload) rfl)
        exact (Dict.get?_modify _ _ _ _).trans (by rw [if_pos hid, hrow.found]; rfl)
      · refine hstill rfl (hrow.of_row ?_ hrow.live rfl rfl)
        exact (Dict.get?_modify _ _ _ _).trans (by rw [if_neg hid, hrow.found])
    | none =>
      have hne : id ≠ s.nextId := Nat.ne_of_lt (hsound.ids id row hrow.found)
      refine hstill rfl (hrow.of_row ?_ hrow.live rfl rfl)
      exact (Dict.get?_set _ _ _ _).trans (by rw [if_neg hne, hrow.found])
  | reclaim =>
    refine hstill (row.key_reclaim s.now) (hrow.of_row ?_ ?_ (row.attempts_reclaim s.now) rfl)
    · exact (Table.get?_reclaim _ _ _).trans (by rw [hrow.found]; rfl)
    · rw [OutboxRow.isFinal_reclaim]
      exact hrow.live
  | claim selected hrows hworkers =>
    obtain ⟨row', hkey, hcoming⟩ := hrow.claim hworkers
    exact hstill hkey hcoming
  | select limit =>
    refine hstill rfl ⟨hrow.found, hrow.live, ?_, ?_⟩
    · intro w hw task htask
      rcases List.mem_append.mp hw with hold | hnew
      · exact hrow.unread w hold task htask
      · rw [List.mem_singleton.mp hnew] at htask
        cases htask
    · refine hrow.due.imp_right ?_
      rintro ⟨w, hw, hid⟩
      exact ⟨w, List.mem_append_left _ hw, hid⟩
  | work core hw hworks => exact hstill rfl (hrow.works ht hworks hrow.found rfl hw)
  | finish hw htask hread => exact hrow.finish hsound ht hw htask hread
  | die hw => exact hstill rfl (coming_of_diesInTime hrow hw hok)

theorem kept_enqueued (hsound : s.Sound) {j : Nat} {payload : Option P} {existing : Option Nat}
    (hcaller : s.callers[j]? = some (.found key payload existing))
    (hok : s.undisturbed (.enqueue j)) :
    (s.enqueued j key payload existing).Kept key s.events := by
  cases existing with
  | none =>
    refine .inr (.inr ⟨s.nextId, OutboxRow.new s.now key payload, rfl, ?_, rfl, ?_, .inl ?_⟩)
    · exact (Dict.get?_set _ _ _ _).trans (if_pos rfl)
    · intro w hw task htask hid
      obtain ⟨row, hrow, -⟩ := (hsound.workers w hw).task task htask
      exact absurd hid (Nat.ne_of_lt (hsound.ids _ row hrow))
    · show 0 < maxAttempts
      decide
  | some id =>
    obtain ⟨row, hrow, hkey⟩ := hsound.callers _ (List.mem_of_getElem? hcaller)
    simp only [undisturbed, hcaller, hrow] at hok
    obtain ⟨hunread, hjoined⟩ := of_decide_eq_true hok
    obtain ⟨hlive, hdue⟩ := of_decide_eq_true hjoined
    refine .inr (.inr ⟨id, row.join s.now payload, (row.key_join _ _).trans hkey, ?_, ?_, ?_, ?_⟩)
    · exact (Dict.get?_modify _ _ _ _).trans (by rw [if_pos rfl, hrow]; rfl)
    · rw [OutboxRow.status_join]
      exact Bool.eq_false_iff.mpr hlive
    · intro w hw task htask hid
      have hother := List.all_eq_true.mp hunread w hw
      rw [htask] at hother
      exact absurd hid (of_decide_eq_true hother)
    · rw [OutboxRow.attempts_join]
      refine hdue.imp_right fun hany => ?_
      obtain ⟨w, hw, hheld⟩ := List.any_eq_true.mp hany
      exact ⟨w, hw, List.contains_iff_mem.mp hheld⟩

theorem returns_of_moves {e : OutboxKey × Nat} (hmoves : s.Moves step s') (he : e ∈ s'.returns) :
    e ∈ s.returns ∨ ∃ j key payload existing, step = .enqueue j ∧ e = (key, s.events) ∧
      s.callers[j]? = some (.found key payload existing) ∧
      s' = s.enqueued j key payload existing := by
  cases hmoves with
  | @enqueue j key payload existing hcaller =>
    have hmem : e ∈ (key, s.events) :: s.returns := by
      cases existing <;> exact he
    rcases List.mem_cons.mp hmem with hnew | hold
    · exact .inr ⟨j, key, payload, existing, rfl, hnew, hcaller, rfl⟩
    · exact .inl hold
  | quiet | reclaim | claim | select | work | finish | die => exact .inl he

structure Tracks (s : Outbox P D C) : Prop where
  sound : s.Sound
  past : ∀ e ∈ s.returns, e.2 < s.events
  delivers : s.Delivers

theorem Kept.counted {t n : Nat} (h : s.Kept key t) :
    Kept { s with events := n } key t := by
  rcases h with hread | hdeath | ⟨id, row, hkey, hrow⟩
  · exact .inl hread
  · exact .inr (.inl hdeath)
  · exact .inr (.inr ⟨id, row, hkey, hrow.of_row hrow.found hrow.live rfl rfl⟩)

theorem Sound.counted {n : Nat} (h : s.Sound) : Sound { s with events := n } := by
  refine ⟨h.ids, fun w hw => ?_, h.callers⟩
  obtain ⟨hclaims, htask, hread⟩ := h.workers w hw
  exact ⟨hclaims, htask, hread⟩

theorem tracks_step {effects : Effects P D C} (h : s.Tracks) (hok : s.undisturbed step)
    (hstep : s.step effects step = some s') : s'.Tracks := by
  obtain ⟨s₁, hmove, rfl⟩ := Option.map_eq_some_iff.mp hstep
  have hmoves := moves_of_move hmove
  have hsound := sound_of_moves h.sound hmoves
  refine ⟨hsound.counted, ?_, ?_⟩
  · intro e he
    rcases returns_of_moves hmoves he with hold | ⟨j, key, payload, existing, -, rfl, -, -⟩
    · exact Nat.lt_succ_of_lt (h.past e hold)
    · exact Nat.lt_succ_self _
  · intro e he
    rcases returns_of_moves hmoves he with hold | ⟨j, key, payload, existing, rfl, rfl, hcaller, rfl⟩
    · exact ((h.delivers e hold).moves h.sound (h.past e hold) hok hmoves).counted
    · exact (kept_enqueued h.sound hcaller hok).counted

theorem tracks_init (now : Int) (db : D) (core : C) : (init now db core : Outbox P D C).Tracks := by
  refine ⟨⟨?_, ?_, ?_⟩, ?_, ?_⟩
  · intro id row hrow
    cases hrow
  all_goals
    intro x hx
    cases hx

end Outbox

/-- **The queue delivers** in every run that meets `undisturbed`. -/
theorem outbox_delivers (effects : Effects P D C) (now : Int) (db : D) (core : C) (s : Outbox P D C)
    (hrun : Run (Outbox.step effects) (fun s step => s.undisturbed step)
      (Outbox.init now db core) s) : s.Delivers :=
  (hrun.invariant Outbox.Tracks (Outbox.tracks_init now db core) Outbox.tracks_step).delivers

def idle : Effects Unit Unit Unit := ⟨fun _ _ _ c => c, fun _ _ _ c => c⟩

def addUser : OutboxKey := ⟨some 1, .add, "all", none⟩

def Outbox.after (ok : Outbox Unit Unit Unit → OutboxStep Unit Unit → Prop)
    [∀ s step, Decidable (ok s step)] (steps : List (OutboxStep Unit Unit)) :
    Option (Outbox Unit Unit Unit) :=
  execGuarded (Outbox.step idle) ok (Outbox.init 0 () ()) steps

def joinsInTime : List (OutboxStep Unit Unit) :=
  [.change () addUser none, .find 0 none, .enqueue 0, .claimPostgres [] 12,
    .change () addUser none, .find 1 (some 1), .enqueue 1, .load 0, .readForApply 0, .apply 0 true,
    .readForConfirm 0, .confirm 0 true, .finish 0 true 0]

theorem joined_row_is_read :
    ∃ s, Outbox.after (fun s step => s.undisturbed step) joinsInTime = some s ∧
      (addUser, 6) ∈ s.returns ∧ s.Kept addUser 6 := by
  have hrun : ∃ s, Outbox.after (fun s step => s.undisturbed step) joinsInTime = some s ∧
      (addUser, 6) ∈ s.returns := ⟨_, rfl, by decide⟩
  obtain ⟨s, hs, hreturned⟩ := hrun
  exact ⟨s, hs, hreturned,
    outbox_delivers idle 0 () () s (Run.of_execGuarded _ hs) _ hreturned⟩

/-- A call joins a row that was read already, and nothing is left to be read. -/
theorem joined_row_is_lost : (Outbox.after (fun _ _ => True)
      [.change () addUser none, .find 0 none, .enqueue 0, .claimPostgres [] 12, .load 0,
        .readForApply 0, .change () addUser none, .find 1 (some 1), .enqueue 1, .apply 0 true,
        .readForConfirm 0, .confirm 0 true, .finish 0 true 0]).any (fun s =>
      s.returns.contains (addUser, 8) ∧ (s.reads.all fun e => e.2 < 8) ∧ s.deaths = [] ∧
        (s.rows.entries.map fun e => e.2.status) = [.done] ∧
        (s.workers.all fun w => w.held = []) ∧
        s.callers.all fun | .returned => true | _ => false) = true := by
  decide

end Shahkar.Sync
