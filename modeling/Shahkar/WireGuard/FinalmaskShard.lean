import Mathlib.Data.List.Perm.Subperm
import Mathlib.Data.List.Count
import Mathlib.Order.MinMax
import Mathlib.Algebra.Order.BigOperators.Group.Finset

/-!
# Shahkar.WireGuard.FinalmaskShard

Finalmask shards of `wireguard/finalmask_shard.py`: every WireGuard proxy has a sticky slot, slots are
filled greedily up to the cap per inbound, and the slot is added to the base port on both sides. The
packing fills the lowest slots first, so all slots lie below a bound exactly if the stored ones do and
there is room for every user below it.
-/

namespace Shahkar.WireGuard.Finalmask

/-- A WireGuard proxy row. `raw` is the stored slot: `none` if there is none, `some none` if `int()`
cannot read it. -/
structure Proxy where
  userId : Nat
  raw : Option (Option Int)
  deriving DecidableEq

def Proxy.userFinalmaskSlot (p : Proxy) : Nat := (p.raw.join.getD 0).toNat

/-- The slots that are stored. -/
def takenSlots (proxies : List Proxy) : List Nat :=
  (proxies.filter (·.raw.isSome)).map Proxy.userFinalmaskSlot

def lowestOpenSlot (cap : Nat) (taken : List Nat) : Option Nat :=
  (List.range (taken.length + 1)).find? fun slot => taken.count slot < cap

def assignSlots (cap : Nat) : List Nat → List Proxy → Option (List Proxy)
  | _, [] => some []
  | taken, p :: rest =>
    if p.raw.isSome then (assignSlots cap taken rest).map (p :: ·)
    else do
      let slot ← lowestOpenSlot cap taken
      let rest' ← assignSlots cap (slot :: taken) rest
      some ({ p with raw := some (some slot) } :: rest')

def ensureFinalmaskSlots (cap : Nat) (proxies : List Proxy) : Option (List Proxy) :=
  assignSlots cap (takenSlots proxies) proxies

def shardPort (base : Int) (slot : Nat) : Int := base + slot

def finalmaskClientPort (base : Int) (p : Proxy) : Int := shardPort base p.userFinalmaskSlot

def shardCountForDb (cap : Nat) (proxies : List Proxy) : Option Nat :=
  (ensureFinalmaskSlots cap proxies).map fun rows =>
    (rows.map fun p => p.userFinalmaskSlot + 1).foldr max 1

def finalmaskListenPorts (cap reserve : Nat) (base : Int) (proxies : List Proxy) :
    Option (List Int) :=
  if base ≤ 0 then some []
  else (shardCountForDb cap proxies).map fun needed =>
    (List.range (min reserve (max needed 1))).map (shardPort base)

section Slots

variable {cap : Nat} {taken : List Nat}

theorem exists_lowestOpenSlot (hcap : 0 < cap) (taken : List Nat) :
    ∃ slot, lowestOpenSlot cap taken = some slot ∧ taken.count slot < cap := by
  cases h : lowestOpenSlot cap taken with
  | some slot => exact ⟨slot, rfl, by simpa using List.find?_some h⟩
  | none =>
    -- otherwise there are more slots taken than the list has
    have hfull : List.range (taken.length + 1) ⊆ taken := by
      intro slot hslot
      have := List.find?_eq_none.mp h slot hslot
      exact List.count_pos_iff.mp (by simp only [decide_eq_true_eq] at this; omega)
    have hlength := (List.nodup_range.subperm hfull).length_le
    rw [List.length_range] at hlength
    omega

theorem takenSlots_cons_some {p : Proxy} (h : p.raw.isSome) (rest : List Proxy) :
    takenSlots (p :: rest) = p.userFinalmaskSlot :: takenSlots rest := by
  simp [takenSlots, h]

/-- The row of the same user, with a slot, and untouched if it had one. -/
def Placed (p p' : Proxy) : Prop := p'.userId = p.userId ∧ p'.raw.isSome ∧ (p.raw.isSome → p' = p)

theorem assignSlots_spec (hcap : 0 < cap) (proxies : List Proxy)
    (htaken : ∀ slot, taken.count slot ≤ cap) :
    ∃ rows, assignSlots cap taken proxies = some rows ∧ List.Forall₂ Placed proxies rows ∧
      ∀ slot, (takenSlots rows).count slot + taken.count slot ≤
        cap + (takenSlots proxies).count slot := by
  -- along the loop, with the slots it has taken so far; the bound carries them beside the rows
  induction proxies generalizing taken with
  | nil => exact ⟨[], rfl, .nil, fun slot => by simpa [takenSlots] using htaken slot⟩
  | cons p rest ih =>
    unfold assignSlots
    split
    · next hraw =>
        obtain ⟨rows, hrows, hplaced, hcount⟩ := ih htaken
        refine ⟨p :: rows, by rw [hrows]; rfl, .cons ⟨rfl, hraw, fun _ => rfl⟩ hplaced, fun slot => ?_⟩
        have := hcount slot
        rw [takenSlots_cons_some hraw, takenSlots_cons_some hraw, List.count_cons, List.count_cons]
        omega
    · next hraw =>
        obtain ⟨slot, hslot, hopen⟩ := exists_lowestOpenSlot hcap taken
        have htaken' : ∀ s, (slot :: taken).count s ≤ cap := by
          intro s
          have := htaken s
          rw [List.count_cons]
          split
          · next heq =>
              rw [← eq_of_beq heq]
              omega
          · omega
        obtain ⟨rows, hrows, hplaced, hcount⟩ := ih htaken'
        refine ⟨{ p with raw := some (some slot) } :: rows, ?_,
          .cons ⟨rfl, rfl, fun h => absurd h hraw⟩ hplaced, fun s => ?_⟩
        · rw [hslot, Option.bind_eq_bind, Option.bind_some, hrows]
          rfl
        · have := hcount s
          have hold : takenSlots (p :: rest) = takenSlots rest := by simp [takenSlots, hraw]
          have hnew : Proxy.userFinalmaskSlot { p with raw := some (some slot) } = slot :=
            Int.toNat_natCast slot
          rw [hold, takenSlots_cons_some rfl, hnew, List.count_cons]
          rw [List.count_cons] at this
          omega

theorem assignSlots_of_placed {proxies rows : List Proxy} (h : List.Forall₂ Placed proxies rows) :
    assignSlots cap taken rows = some rows := by
  induction h with
  | nil => rfl
  | cons hp _ ih =>
    rw [assignSlots, if_pos hp.2.1, ih]
    rfl

theorem takenSlots_placed {proxies rows : List Proxy} (h : List.Forall₂ Placed proxies rows) :
    takenSlots rows = rows.map Proxy.userFinalmaskSlot := by
  induction h with
  | nil => rfl
  | cons hp _ ih => rw [takenSlots_cons_some hp.2.1, ih, List.map_cons]

theorem takenSlots_subset {proxies rows : List Proxy} (h : List.Forall₂ Placed proxies rows) :
    takenSlots proxies ⊆ takenSlots rows := by
  induction h with
  | nil => exact List.Subset.refl _
  | @cons p p' rest rows hp _ ih =>
    rw [takenSlots_cons_some hp.2.1]
    by_cases hraw : p.raw.isSome
    · rw [takenSlots_cons_some hraw, hp.2.2 hraw]
      exact List.cons_subset_cons _ ih
    · have hold : takenSlots (p :: rest) = takenSlots rest := by simp [takenSlots, hraw]
      rw [hold]
      exact List.subset_cons_of_subset _ ih

/-!
### Room below a bound
-/

theorem length_eq_sum_count {bound : Nat} (hbound : ∀ slot ∈ taken, slot < bound) :
    taken.length = ∑ slot ∈ Finset.range bound, taken.count slot := by
  have hsum := Multiset.sum_count_eq_card (s := Finset.range bound)
    (m := (taken : Multiset Nat)) fun slot hslot => Finset.mem_range.mpr (hbound slot hslot)
  simpa using hsum.symm

theorem length_le_of_count {bound : Nat} (hbound : ∀ slot ∈ taken, slot < bound)
    (hcount : ∀ slot, taken.count slot ≤ cap) : taken.length ≤ cap * bound := by
  rw [length_eq_sum_count hbound]
  calc ∑ slot ∈ Finset.range bound, taken.count slot
      ≤ ∑ _slot ∈ Finset.range bound, cap := Finset.sum_le_sum fun slot _ => hcount slot
    _ = cap * bound := by simp [Nat.mul_comm]

theorem lowestOpenSlot_le {slot slot' : Nat} (h : lowestOpenSlot cap taken = some slot)
    (hopen : taken.count slot' < cap) : slot ≤ slot' := by
  by_contra hlt
  obtain ⟨-, i, hi, hget, hfirst⟩ := List.find?_eq_some_iff_getElem.mp h
  rw [List.getElem_range] at hget
  have := hfirst slot' (by omega)
  simp only [List.getElem_range] at this
  simp [hopen] at this

/-- As long as there is room below the bound, the lowest open slot is below it. -/
theorem lowestOpenSlot_lt {bound slot : Nat} (h : lowestOpenSlot cap taken = some slot)
    (hbound : ∀ slot ∈ taken, slot < bound) (hroom : taken.length < cap * bound) :
    slot < bound := by
  by_contra hlt
  have hfull : ∀ slot' ∈ Finset.range bound, cap ≤ taken.count slot' := by
    intro slot' hslot'
    rw [Finset.mem_range] at hslot'
    by_contra hopen
    have := lowestOpenSlot_le h (Nat.lt_of_not_le hopen)
    omega
  have : cap * bound ≤ taken.length := by
    rw [length_eq_sum_count hbound]
    calc cap * bound = ∑ _slot ∈ Finset.range bound, cap := by simp [Nat.mul_comm]
      _ ≤ ∑ slot' ∈ Finset.range bound, taken.count slot' := Finset.sum_le_sum hfull
  omega

theorem assignSlots_lt {bound : Nat} {proxies rows : List Proxy}
    (h : assignSlots cap taken proxies = some rows) (hbound : ∀ slot ∈ taken, slot < bound)
    (hstored : ∀ slot ∈ takenSlots proxies, slot < bound)
    (hroom : taken.length + proxies.length ≤ cap * bound + (takenSlots proxies).length) :
    ∀ p ∈ rows, p.userFinalmaskSlot < bound := by
  induction proxies generalizing taken rows with
  | nil =>
    cases h
    simp
  | cons p rest ih =>
    unfold assignSlots at h
    split_ifs at h with hraw
    · obtain ⟨rows', hrows', rfl⟩ := Option.map_eq_some_iff.mp h
      rw [takenSlots_cons_some hraw] at hstored hroom
      obtain ⟨hp, hrest⟩ := List.forall_mem_cons.mp hstored
      simp only [List.length_cons] at hroom
      exact List.forall_mem_cons.mpr ⟨hp, ih hrows' hbound hrest (by omega)⟩
    · obtain ⟨slot, hslot, hrest⟩ := Option.bind_eq_some_iff.mp h
      obtain ⟨rows', hrows', heq⟩ := Option.bind_eq_some_iff.mp hrest
      cases heq
      have hold : takenSlots (p :: rest) = takenSlots rest := by simp [takenSlots, hraw]
      rw [hold] at hstored hroom
      simp only [List.length_cons] at hroom
      have hfew : (takenSlots rest).length ≤ rest.length := by
        rw [takenSlots, List.length_map]
        exact List.length_filter_le _ _
      have hlt := lowestOpenSlot_lt hslot hbound (by omega)
      refine List.forall_mem_cons.mpr ⟨?_, ih hrows' (List.forall_mem_cons.mpr ⟨hlt, hbound⟩)
        hstored (by rw [List.length_cons]; omega)⟩
      rw [Proxy.userFinalmaskSlot]
      exact lt_of_eq_of_lt (Int.toNat_natCast slot) hlt

theorem slot_lt_count {p : Proxy} {rows : List Proxy} (hp : p ∈ rows) :
    p.userFinalmaskSlot < (rows.map fun p => p.userFinalmaskSlot + 1).foldr max 1 := by
  induction rows with
  | nil => cases hp
  | cons q rest ih =>
    rw [List.map_cons, List.foldr_cons]
    rcases List.mem_cons.mp hp with rfl | hp
    · exact lt_max_of_lt_left (Nat.lt_succ_self _)
    · exact lt_max_of_lt_right (ih hp)

end Slots

/-- A client reaches its shard: the port it is given is open, and is a port. -/
def Reaches (cap reserve : Nat) (base : Int) (rows : List Proxy) (p : Proxy) : Prop :=
  (∃ ports ∈ finalmaskListenPorts cap reserve base rows, finalmaskClientPort base p ∈ ports) ∧
    1 ≤ finalmaskClientPort base p ∧ finalmaskClientPort base p ≤ 65535

/-- How many shards have a port that the firewall opens. -/
def openShards (reserve : Nat) (base : Int) : Nat := min reserve (65536 - base).toNat

/-- There is a base port, the stored slots are below the open shards, and these have room for every
user. -/
def Roomy (cap reserve : Nat) (base : Int) (proxies : List Proxy) : Prop :=
  proxies = [] ∨ 0 < base ∧ (∀ slot ∈ takenSlots proxies, slot < openShards reserve base) ∧
    proxies.length ≤ cap * openShards reserve base

theorem reaches_iff {cap reserve : Nat} {base : Int} {rows : List Proxy} {p : Proxy} (hp : p ∈ rows)
    (hrows : ensureFinalmaskSlots cap rows = some rows) :
    Reaches cap reserve base rows p ↔
      0 < base ∧ p.userFinalmaskSlot < openShards reserve base := by
  have hslot := slot_lt_count hp
  unfold Reaches finalmaskListenPorts shardCountForDb finalmaskClientPort shardPort openShards
  rw [hrows]
  by_cases hbase : base ≤ 0
  · simp [hbase, not_lt.mpr hbase]
  · simp only [if_neg hbase, Option.map_some, Option.mem_some_iff, exists_eq_left', List.mem_map,
      List.mem_range, lt_min_iff]
    constructor
    · rintro ⟨⟨slot, ⟨hreserve, -⟩, heq⟩, -, hport⟩
      omega
    · rintro ⟨-, hreserve, hport⟩
      exact ⟨⟨_, ⟨hreserve, lt_max_of_lt_left hslot⟩, rfl⟩, by omega, by omega⟩

/-- **Clients reach their shards** exactly if the open shards hold the stored slots and have room for
all users; the packing itself needs nothing. -/
theorem ensureFinalmaskSlots_reaches_iff {cap : Nat} (reserve : Nat) (base : Int)
    (proxies : List Proxy) (hcap : 0 < cap) (hstored : ∀ slot, (takenSlots proxies).count slot ≤ cap) :
    ∃ rows, ensureFinalmaskSlots cap proxies = some rows ∧ List.Forall₂ Placed proxies rows ∧
      (∀ slot, (takenSlots rows).count slot ≤ cap) ∧ ensureFinalmaskSlots cap rows = some rows ∧
      ((∀ p ∈ rows, Reaches cap reserve base rows p) ↔ Roomy cap reserve base proxies) := by
  obtain ⟨rows, hrows, hplaced, hcount⟩ := assignSlots_spec hcap proxies hstored
  have hidem : ensureFinalmaskSlots cap rows = some rows := assignSlots_of_placed hplaced
  have hcap' : ∀ slot, (takenSlots rows).count slot ≤ cap := by
    intro slot
    have := hcount slot
    omega
  refine ⟨rows, hrows, hplaced, hcap', hidem, fun h => ?_, fun h p hp => ?_⟩
  · rw [Roomy, or_iff_not_imp_left]
    intro hne
    have hslots : ∀ slot ∈ takenSlots rows, slot < openShards reserve base := by
      rw [takenSlots_placed hplaced]
      intro slot hslot
      obtain ⟨p, hp, rfl⟩ := List.mem_map.mp hslot
      exact ((reaches_iff hp hidem).mp (h p hp)).2
    obtain ⟨p, hp⟩ : ∃ p, p ∈ rows := by
      refine List.exists_mem_of_ne_nil _ fun hnil => hne ?_
      exact List.length_eq_zero_iff.mp (hplaced.length_eq.trans (hnil ▸ rfl))
    refine ⟨((reaches_iff hp hidem).mp (h p hp)).1,
      fun slot hslot => hslots slot (takenSlots_subset hplaced hslot), ?_⟩
    have hlength := length_le_of_count hslots hcap'
    rwa [takenSlots_placed hplaced, List.length_map, ← hplaced.length_eq] at hlength
  · rcases h with rfl | ⟨hbase, hslots, hroom⟩
    · cases hplaced
      cases hp
    · refine (reaches_iff hp hidem).mpr ⟨hbase, ?_⟩
      exact assignSlots_lt hrows hslots hslots (by omega) p hp

def fiveUsers : List Proxy :=
  [⟨1, some (some 1)⟩, ⟨2, some (some 0)⟩, ⟨3, none⟩, ⟨4, none⟩, ⟨5, none⟩]

/-- Five users of whom two have a slot, two to an inbound: both shards and a third are open. -/
theorem five_users_reach :
    ∃ rows, ensureFinalmaskSlots 2 fiveUsers = some rows ∧ rows.map Proxy.userFinalmaskSlot =
      [1, 0, 0, 1, 2] ∧ ∀ p ∈ rows, Reaches 2 256 65533 rows p := by
  obtain ⟨rows, hrows, -, -, -, hreach⟩ := ensureFinalmaskSlots_reaches_iff 256 65533 fiveUsers
    (show 0 < 2 by decide) (fun slot => by
      rw [show takenSlots fiveUsers = [1, 0] by decide, List.count_cons, List.count_cons]
      simp only [List.count_nil]
      split_ifs <;> omega)
  refine ⟨rows, hrows, ?_, hreach.mpr ?_⟩
  · have hfive : (ensureFinalmaskSlots 2 fiveUsers).map (·.map Proxy.userFinalmaskSlot) =
        some [1, 0, 0, 1, 2] := by
      decide
    rw [hrows] at hfive
    exact Option.some.inj hfive
  · refine .inr ⟨by decide, ?_, by decide⟩
    decide

theorem second_shard_not_a_port :
    let rows : List Proxy := [⟨1, some (some 0)⟩, ⟨2, some (some 1)⟩]
    ensureFinalmaskSlots 1 [⟨1, none⟩, ⟨2, none⟩] = some rows ∧
      finalmaskListenPorts 1 256 65535 rows = some [65535, 65536] ∧
      rows.map (finalmaskClientPort 65535) = [65535, 65536] := by
  decide

end Shahkar.WireGuard.Finalmask
