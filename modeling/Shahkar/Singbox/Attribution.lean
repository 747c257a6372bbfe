import Shahkar.Lib.Text
import Shahkar.Singbox.Sync

/-!
# Whose traffic a counter is

`build_name_user_map` writes four kinds of identifiers of all users into one dictionary, and the
last write stays.
-/

namespace Shahkar.Singbox

open Shahkar.Lib

/-!
### Names
-/

theorem SBUser.userId_of_name {u v : SBUser} (h : u.name = v.name) : u.userId = v.userId := by
  have hlist := congrArg String.toList h
  simp only [SBUser.name, String.toList_append, List.append_assoc] at hlist
  exact (Text.decimal_append_inj (c := '.') (by decide) hlist).1

theorem SBUser.name_ne_empty (u : SBUser) : u.name ≠ "" := by
  intro h
  have hlist := congrArg String.toList h
  simp [SBUser.name] at hlist

theorem SBUser.empty_notMem_keys (u : SBUser) : "" ∉ u.keys := by
  simp [SBUser.keys, u.name_ne_empty.symm, Option.filter_eq_some_iff]

/-!
### The last write
-/

theorem get?_foldl_keys (keys : List String) (id : Nat) (d : Dict String Nat) (key : String) :
    (keys.foldl (fun out key => out.set key id) d).get? key =
      if key ∈ keys then some id else d.get? key := by
  induction keys generalizing d with
  | nil => simp
  | cons k rest ih =>
    rw [List.foldl_cons, ih, Dict.get?_set]
    by_cases hrest : key ∈ rest
    · simp [hrest]
    · simp [hrest]

theorem get?_foldl_users (l : List SBUser) (d : Dict String Nat) (key : String) :
    ((∀ b ∈ l, key ∉ b.keys) ∧
      (l.foldl (fun out u => u.keys.foldl (fun out key => out.set key u.userId) out) d).get? key =
        d.get? key) ∨
    ∃ b ∈ l, key ∈ b.keys ∧
      (l.foldl (fun out u => u.keys.foldl (fun out key => out.set key u.userId) out) d).get? key =
        some b.userId := by
  induction l generalizing d with
  | nil => simp
  | cons u rest ih =>
    rw [List.foldl_cons]
    rcases ih (u.keys.foldl (fun out key => out.set key u.userId) d) with ⟨hnone, hget⟩ | h
    · rw [hget, get?_foldl_keys]
      by_cases hkey : key ∈ u.keys
      · exact .inr ⟨u, List.mem_cons_self, hkey, if_pos hkey⟩
      · exact .inl ⟨List.forall_mem_cons.mpr ⟨hkey, hnone⟩, if_neg hkey⟩
    · obtain ⟨b, hb, hkey, hget⟩ := h
      exact .inr ⟨b, List.mem_cons_of_mem u hb, hkey, hget⟩

theorem get?_buildNameUserMap_iff {l₁ l₂ : List SBUser} {a : SBUser} {key : String}
    (hids : ∀ b ∈ l₂, b.userId ≠ a.userId) (hkey : key ∈ a.keys) :
    (buildNameUserMap (l₁ ++ a :: l₂)).get? key = some a.userId ↔ ∀ b ∈ l₂, key ∉ b.keys := by
  unfold buildNameUserMap
  rw [List.foldl_append, List.foldl_cons]
  generalize l₁.foldl _ Dict.empty = d
  rcases get?_foldl_users l₂ (a.keys.foldl (fun out key => out.set key a.userId) d) key with
    ⟨hnone, hget⟩ | ⟨b, hb, hlater, hget⟩
  · rw [hget, get?_foldl_keys, if_pos hkey]
    exact iff_of_true rfl hnone
  · rw [hget, Option.some.injEq]
    exact iff_of_false (hids b hb) fun hnone => hnone b hb hlater

/-- The user `b` has no identifier that is the counter name or the username of `a`. -/
structure Unshadowed (a b : SBUser) : Prop where
  name : b.name ≠ a.username
  username : b.username ≠ a.name
  uuid : b.uuid ≠ some a.name ∧ b.uuid ≠ some a.username
  password : b.password ≠ some a.name ∧ b.password ≠ some a.username

theorem unshadowed_iff {a b : SBUser} (hid : b.userId ≠ a.userId) (hname : b.username ≠ a.username)
    (hempty : a.username ≠ "") :
    (a.name ∉ b.keys ∧ a.username ∉ b.keys) ↔ Unshadowed a b := by
  have hnames : a.name ≠ b.name := fun h => hid (SBUser.userId_of_name h.symm)
  simp only [SBUser.keys, List.mem_cons, List.mem_filterMap, List.not_mem_nil, or_false,
    exists_eq_or_imp, exists_eq_left, Option.filter_eq_some_iff, decide_eq_true_eq, ne_eq,
    Option.some.injEq, hnames, a.name_ne_empty, hempty, hname, not_false_eq_true, and_true, false_or,
    not_or]
  exact ⟨fun h => ⟨Ne.symm h.2.1, h.1.1, ⟨h.1.2.1, h.2.2.1⟩, h.1.2.2, h.2.2.2⟩,
    fun h => ⟨⟨h.username, h.uuid.1, h.password.1⟩, h.name.symm, h.uuid.2, h.password.2⟩⟩

/-- **Traffic is attributed to its owner** exactly if no later user takes the name. -/
theorem attributed_iff (users : List SBUser) (hids : (users.map SBUser.userId).Nodup)
    (hnames : (users.map SBUser.username).Nodup) (l₁ l₂ : List SBUser) (a : SBUser)
    (husers : users = l₁ ++ a :: l₂) :
    ((buildNameUserMap users).get? a.name = some a.userId ∧
      (buildNameUserMap users).get? a.username = some a.userId) ↔
      a.username ≠ "" ∧ ∀ b ∈ l₂, Unshadowed a b := by
  subst husers
  have hlater : ∀ {α : Type} (f : SBUser → α), ((l₁ ++ a :: l₂).map f).Nodup →
      ∀ b ∈ l₂, f b ≠ f a := by
    intro α f hnodup b hb heq
    rw [List.map_append, List.map_cons] at hnodup
    have hnotMem := (List.nodup_cons.mp hnodup.of_append_right).1
    exact hnotMem (List.mem_map.mpr ⟨b, hb, heq⟩)
  have hid := hlater _ hids
  by_cases hempty : a.username = ""
  · refine iff_of_false (fun h => ?_) fun h => h.1 hempty
    rw [hempty] at h
    rcases get?_foldl_users (l₁ ++ a :: l₂) Dict.empty "" with ⟨-, hget⟩ | ⟨b, -, hkey, -⟩
    · have hmapped : (buildNameUserMap (l₁ ++ a :: l₂)).get? "" = none := hget
      rw [hmapped] at h
      cases h.2
    · exact b.empty_notMem_keys hkey
  · have husername : a.username ∈ a.keys := by
      simp [SBUser.keys, Option.filter_eq_some_iff, hempty]
    rw [get?_buildNameUserMap_iff hid List.mem_cons_self, get?_buildNameUserMap_iff hid husername]
    simp only [ne_eq, hempty, not_false_eq_true, true_and, ← forall_and]
    exact forall₂_congr fun b hb => unshadowed_iff (hid b hb) (hlater _ hnames b hb) hempty

def aliceAndMallory : List SBUser :=
  [{ userId := 1, username := "alice", protocol := .hysteria2, password := some "secret" },
    { userId := 2, username := "mallory", protocol := .hysteria2, password := some "alice" }]

/-- **A password takes over another user's counter.** -/
theorem username_leads_to_mallory :
    (buildNameUserMap aliceAndMallory).get? "alice" = some 2 := by
  decide

def aliceAndBob : List SBUser :=
  [{ userId := 1, username := "alice", protocol := .hysteria2, password := some "secret" },
    { userId := 2, username := "bob", protocol := .tuic, uuid := some "b831381d",
      password := some "hunter2" }]

theorem alice_attributed :
    (buildNameUserMap aliceAndBob).get? "1.alice" = some 1 ∧
      (buildNameUserMap aliceAndBob).get? "alice" = some 1 := by
  refine (attributed_iff aliceAndBob (by decide) (by decide) [] [_] _ rfl).mpr
    ⟨by decide, List.forall_mem_singleton.mpr ⟨?_, ?_, ?_, ?_⟩⟩
  all_goals decide

end Shahkar.Singbox
