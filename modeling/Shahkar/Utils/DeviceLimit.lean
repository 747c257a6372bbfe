import Mathlib.Data.Finset.Card
import Shahkar.Lib.Grouping
import Shahkar.Lib.Text

/-!
# The device limit of subscriptions (`app/utils/device_limit.py`)

A platform counts as a *slot* while its entry is recent. A request from a new platform is refused,
and starts a lockout, when the slots are full.
-/

namespace Shahkar.Utils

open Shahkar.Lib

/-!
### User agents
-/

inductive Platform
  | android
  | ios
  | windows
  | macos
  | linux
  | other
  deriving Repr, DecidableEq

def Platform.text : Platform → String
  | android => "android"
  | ios => "ios"
  | windows => "windows"
  | macos => "macos"
  | linux => "linux"
  | other => "other"

structure Surroundings where
  browserPattern : String → Bool
  vpnClientPattern : String → Bool
  linkPreviewPattern : String → Bool
  classifyClientPlatform : String → Platform
  infrastructureIps : String → Bool

namespace Surroundings

variable (env : Surroundings)

def isBrowserUa (ua : String) : Bool := env.browserPattern ua && !env.vpnClientPattern ua

def isLinkPreviewUa (userAgent : String) : Bool :=
  let ua := Text.stripped userAgent
  ua ≠ "" && !env.vpnClientPattern ua && env.linkPreviewPattern ua

def isInfrastructureIp (ip : String) : Bool := ip = "" || env.infrastructureIps ip

end Surroundings

/-!
### Entries
-/

structure DeviceEntry where
  seen : Option Int
  ip : String := ""
  ua : String := ""
  platform : String := ""
  recentIps : List (String × Option Int) := []
  deriving Repr, DecidableEq

inductive DeviceValue
  | time (seen : Option Int)
  | entry (e : DeviceEntry)
  | junk
  deriving Repr, DecidableEq

abbrev DeviceMap := Dict String DeviceValue

def DeviceValue.seen : DeviceValue → Option Int
  | time seen => seen
  | entry e => e.seen
  | junk => none

def since (cutoff : Int) (seen : Option Int) : Bool := seen.any (cutoff ≤ ·)

def second : Int := 1000000

def activeWindow : Int := 86400 * second

def concurrentIpWindow : Int := 2700 * second

def deviceLockout : Int := 1800 * second

section Policy

variable (env : Surroundings)

def prune (ips : DeviceMap) (now : Int) : DeviceMap :=
  ips.filter fun _ value => since (now - activeWindow) value.seen

def clientDeviceEntries (ips : DeviceMap) : DeviceMap :=
  ips.filter fun key _ =>
    Text.startsWith "fp:" key || Text.startsWith "hw:" key || !env.infrastructureIps key

def hasRecentIps (e : DeviceEntry) (cutoff : Int) : Bool :=
  (e.recentIps.any fun x => !env.isInfrastructureIp x.1 && since cutoff x.2) ||
    (!env.isInfrastructureIp e.ip && since cutoff e.seen)

def entryIsActive (value : DeviceValue) (cutoff : Int) : Bool :=
  match value with
  | .entry e => hasRecentIps env e cutoff || since cutoff e.seen
  | value => since cutoff value.seen

def platformFromEntry (key : String) (value : DeviceValue) : String :=
  if Text.startsWith "plat:" key then
    if Text.dropChars 5 key = "" then "other" else Text.dropChars 5 key
  else match value with
    | .entry e => if e.platform = "" then "other" else e.platform
    | _ => "other"

def DeviceValue.ignored : DeviceValue → Bool
  | .entry e => env.isBrowserUa e.ua || env.isLinkPreviewUa e.ua
  | _ => false

def slotOf (now : Int) (key : String) (value : DeviceValue) : Option String :=
  let cutoff := now - concurrentIpWindow
  if value.ignored env then none
  else if entryIsActive env value cutoff then some (platformFromEntry key value)
  else if !(Text.startsWith "plat:" key || Text.startsWith "fp:" key ||
      Text.startsWith "hw:" key) && !env.isInfrastructureIp key && since cutoff value.seen then
    some "other"
  else none

def activePlatformSlots (ips : DeviceMap) (now : Int) : Finset String :=
  (ips.entries.filterMap fun e => slotOf env now e.1 e.2).toFinset

def collapseSamePlatform (ips : DeviceMap) (platform keepKey : String) : DeviceMap :=
  ips.filter fun key value => key = keepKey || platformFromEntry key value ≠ platform

/-- What is stored of an account: its map, and the end of its lockout. -/
structure DeviceState where
  ips : DeviceMap
  lockoutUntil : Option Int := none

structure DeviceRequest where
  now : Int
  clientIp : String
  userAgent : String := ""
  hwid : String := ""

def countedSlots (ips : DeviceMap) (now : Int) : Finset String :=
  activePlatformSlots env (clientDeviceEntries env (prune ips now)) now

def recordAndCheckDeviceLimit (limit : Option Int) (enforce : Bool) (s : DeviceState)
    (r : DeviceRequest) : DeviceState :=
  let ua := Text.stripped r.userAgent
  if env.isBrowserUa ua then s
  else if env.isLinkPreviewUa ua then s
  else if env.isInfrastructureIp r.clientIp && Text.stripped r.hwid = "" && ua = "" then s
  else
    let platform := (env.classifyClientPlatform r.userAgent).text
    let key := "plat:" ++ platform
    let ips := collapseSamePlatform (clientDeviceEntries env (prune s.ips r.now)) platform key
    let activeSlots := activePlatformSlots env ips r.now
    let cap := limit.getD 0
    if enforce && 0 < cap && platform ∉ activeSlots && cap ≤ activeSlots.card then
      { s with lockoutUntil := some (r.now + deviceLockout) }
    else
      let usable := !env.isInfrastructureIp r.clientIp
      let oldIp := match ips.get? key with
        | some (.entry e) => e.ip
        | _ => ""
      { s with
        ips := ips.set key (.entry
          { seen := some r.now
            ip := if usable then r.clientIp else oldIp
            ua := Text.takeChars 180 r.userAgent
            platform := platform
            recentIps := if usable then [(r.clientIp, some r.now)] else [] }) }

def getDeviceLockoutRemaining (s : DeviceState) (now : Int) : Option Int :=
  (s.lockoutUntil.map fun til => (til - now).tdiv second).filter (0 < ·)

def applySubscriptionDevicePolicy (limit : Option Int) (s : DeviceState) (r : DeviceRequest) :
    Option Int × DeviceState :=
  match getDeviceLockoutRemaining s r.now with
  | some remaining => (some remaining, s)
  | none =>
    if limit.getD 0 ≤ 0 then (none, recordAndCheckDeviceLimit env limit false s r)
    else
      let s' := recordAndCheckDeviceLimit env limit true s r
      (getDeviceLockoutRemaining s' r.now, s')

end Policy

section Slots

variable {env : Surroundings} {ips : DeviceMap} {now now' : Int} {platform : String}

variable {value : DeviceValue} {cutoff cutoff' : Int}

theorem since_mono (h : cutoff ≤ cutoff') {seen : Option Int}
    (hseen : since cutoff' seen) : since cutoff seen := by
  cases seen with
  | none => exact hseen
  | some t => exact decide_eq_true (h.trans (of_decide_eq_true hseen))

theorem entryIsActive_of_since {cutoff : Int}
    (h : since cutoff value.seen) : entryIsActive env value cutoff := by
  cases value with
  | time seen => exact h
  | entry e => exact Bool.or_eq_true_iff.mpr (.inr h)
  | junk => exact h

theorem slotOf_eq_some_iff {key : String} :
    slotOf env now key value = some platform ↔ value.ignored env = false ∧
      entryIsActive env value (now - concurrentIpWindow) ∧
        platformFromEntry key value = platform := by
  unfold slotOf
  cases hignored : value.ignored env with
  | true => simp
  | false =>
    cases hactive : entryIsActive env value (now - concurrentIpWindow) with
    | true => simp [hactive]
    | false =>
      have hseen : since (now - concurrentIpWindow) value.seen = false :=
        Bool.eq_false_iff.mpr fun h => by
          rw [entryIsActive_of_since h] at hactive
          cases hactive
      simp [hactive, hseen]

theorem entryIsActive_mono (h : cutoff ≤ cutoff')
    (hactive : entryIsActive env value cutoff') : entryIsActive env value cutoff := by
  cases value with
  | time seen => exact since_mono h hactive
  | junk => exact hactive
  | entry e =>
    simp only [entryIsActive, hasRecentIps, Bool.or_eq_true, List.any_eq_true, Bool.and_eq_true]
      at hactive ⊢
    rcases hactive with (⟨x, hx, hip, hseen⟩ | ⟨hip, hseen⟩) | hseen
    · exact .inl (.inl ⟨x, hx, hip, since_mono h hseen⟩)
    · exact .inl (.inr ⟨hip, since_mono h hseen⟩)
    · exact .inr (since_mono h hseen)

theorem mem_activePlatformSlots : platform ∈ activePlatformSlots env ips now ↔
    ∃ e ∈ ips.entries, slotOf env now e.1 e.2 = some platform := by
  simp [activePlatformSlots]

theorem activePlatformSlots_subset {ips' : DeviceMap} (h : ∀ e ∈ ips.entries, e ∈ ips'.entries) :
    activePlatformSlots env ips now ⊆ activePlatformSlots env ips' now := by
  intro p hp
  obtain ⟨e, he, hslot⟩ := mem_activePlatformSlots.mp hp
  exact mem_activePlatformSlots.mpr ⟨e, h e he, hslot⟩

theorem countedSlots_anti (env : Surroundings) (ips : DeviceMap) (h : now ≤ now') :
    countedSlots env ips now' ⊆ countedSlots env ips now := by
  intro p hp
  obtain ⟨e, he, hslot⟩ := mem_activePlatformSlots.mp hp
  simp only [clientDeviceEntries, prune, Dict.mem_entries_filter] at he
  obtain ⟨hignored, hactive, hplatform⟩ := slotOf_eq_some_iff.mp hslot
  refine mem_activePlatformSlots.mpr ⟨e, ?_, slotOf_eq_some_iff.mpr
    ⟨hignored, entryIsActive_mono (by omega) hactive, hplatform⟩⟩
  simp only [clientDeviceEntries, prune, Dict.mem_entries_filter]
  exact ⟨⟨he.1.1, since_mono (by omega) he.1.2⟩, he.2⟩

theorem platformFromEntry_platform (p : Platform) (value : DeviceValue) :
    platformFromEntry ("plat:" ++ p.text) value = p.text := by
  have hdrop : Text.dropChars 5 ("plat:" ++ p.text) = p.text :=
    Text.dropChars_length_append "plat:" p.text
  unfold platformFromEntry
  rw [if_pos (Text.startsWith_iff.mpr ⟨_, rfl⟩), hdrop, if_neg]
  cases p <;> decide

theorem activePlatformSlots_set_subset (p : Platform) (value : DeviceValue) :
    activePlatformSlots env (ips.set ("plat:" ++ p.text) value) now ⊆
      insert p.text (activePlatformSlots env ips now) := by
  intro q hq
  obtain ⟨e, he, hslot⟩ := mem_activePlatformSlots.mp hq
  rcases Dict.mem_entries_set he with rfl | he
  · obtain ⟨-, -, hplatform⟩ := slotOf_eq_some_iff.mp hslot
    rw [← hplatform, platformFromEntry_platform]
    exact Finset.mem_insert_self _ _
  · exact Finset.mem_insert_of_mem (mem_activePlatformSlots.mpr ⟨e, he, hslot⟩)

end Slots

section Step

variable {env : Surroundings} {cap : Int} {s : DeviceState} {r : DeviceRequest}

def collapsed (env : Surroundings) (s : DeviceState) (r : DeviceRequest) : DeviceMap :=
  collapseSamePlatform (clientDeviceEntries env (prune s.ips r.now))
    (env.classifyClientPlatform r.userAgent).text
    ("plat:" ++ (env.classifyClientPlatform r.userAgent).text)

variable (env s r) in
theorem collapsed_slots_subset :
    activePlatformSlots env (collapsed env s r) r.now ⊆ countedSlots env s.ips r.now := by
  refine activePlatformSlots_subset fun e he => ?_
  simp only [collapsed, collapseSamePlatform, Dict.mem_entries_filter] at he
  exact he.1

theorem record_cases (env : Surroundings) (s : DeviceState) (r : DeviceRequest) (hcap : 0 < cap) :
    recordAndCheckDeviceLimit env (some cap) true s r = s ∨
    (recordAndCheckDeviceLimit env (some cap) true s r =
        { s with lockoutUntil := some (r.now + deviceLockout) } ∧
      (env.classifyClientPlatform r.userAgent).text ∉
        activePlatformSlots env (collapsed env s r) r.now ∧
      cap ≤ (activePlatformSlots env (collapsed env s r) r.now).card) ∨
    ((∃ value, recordAndCheckDeviceLimit env (some cap) true s r = { s with
        ips := (collapsed env s r).set
          ("plat:" ++ (env.classifyClientPlatform r.userAgent).text) value }) ∧
      ((env.classifyClientPlatform r.userAgent).text ∈
          activePlatformSlots env (collapsed env s r) r.now ∨
        (activePlatformSlots env (collapsed env s r) r.now).card < cap)) := by
  unfold recordAndCheckDeviceLimit
  dsimp only
  split
  · exact .inl rfl
  split
  · exact .inl rfl
  split
  · exact .inl rfl
  split
  · next hfull =>
      simp only [Bool.and_eq_true, decide_eq_true_eq, Option.getD_some] at hfull
      exact .inr (.inl ⟨rfl, hfull.1.2, hfull.2⟩)
  · next hroom =>
      refine .inr (.inr ⟨⟨_, rfl⟩, ?_⟩)
      simp only [Bool.and_eq_true, decide_eq_true_eq, Option.getD_some, hcap, true_and, and_true,
        not_and, not_le] at hroom
      exact (em _).imp_right fun hnew => hroom hnew

theorem card_countedSlots_record_le (hcap : 0 < cap)
    (h : (countedSlots env s.ips r.now).card ≤ cap) :
    (countedSlots env (recordAndCheckDeviceLimit env (some cap) true s r).ips r.now).card ≤
      cap := by
  rcases record_cases env s r hcap with hsame | ⟨hlock, -⟩ | ⟨⟨value, hset⟩, hroom⟩
  · rw [hsame]
    exact h
  · rw [hlock]
    exact h
  · rw [hset]
    dsimp only
    have hcounted : countedSlots env ((collapsed env s r).set
          ("plat:" ++ (env.classifyClientPlatform r.userAgent).text) value) r.now ⊆
        insert (env.classifyClientPlatform r.userAgent).text
          (activePlatformSlots env (collapsed env s r) r.now) := by
      refine (activePlatformSlots_subset fun e he => ?_).trans
        (activePlatformSlots_set_subset _ value)
      simp only [clientDeviceEntries, prune, Dict.mem_entries_filter] at he
      exact he.1.1
    have hle := Finset.card_le_card hcounted
    rcases hroom with hknown | hroom
    · rw [Finset.insert_eq_self.mpr hknown] at hle
      have hold := Finset.card_le_card (collapsed_slots_subset env s r)
      omega
    · have hinsert := Finset.card_insert_le (env.classifyClientPlatform r.userAgent).text
        (activePlatformSlots env (collapsed env s r) r.now)
      omega

theorem lockoutUntil_record (hcap : 0 < cap) (h : (countedSlots env s.ips r.now).card ≤ cap)
    (hactive : (env.classifyClientPlatform r.userAgent).text ∈ countedSlots env s.ips r.now) :
    (recordAndCheckDeviceLimit env (some cap) true s r).lockoutUntil = s.lockoutUntil := by
  rcases record_cases env s r hcap with hsame | ⟨-, hnew, hfull⟩ | ⟨⟨value, hset⟩, -⟩
  · rw [hsame]
  · -- The other slots are fewer than all of them.
    have hsub : activePlatformSlots env (collapsed env s r) r.now ⊂ countedSlots env s.ips r.now :=
      Finset.ssubset_iff_subset_ne.mpr
        ⟨collapsed_slots_subset env s r, fun heq => hnew (heq ▸ hactive)⟩
    have hlt := Finset.card_lt_card hsub
    omega
  · rw [hset]

end Step

def served (env : Surroundings) (cap : Int) (s : DeviceState) (rs : List DeviceRequest) :
    DeviceState :=
  rs.foldl (fun s r => (applySubscriptionDevicePolicy env (some cap) s r).2) s

section Run

variable {env : Surroundings} {cap : Int}

theorem applyPolicy_snd (env : Surroundings) (hcap : 0 < cap) (s : DeviceState)
    (r : DeviceRequest) :
    (applySubscriptionDevicePolicy env (some cap) s r).2 = s ∨
      (applySubscriptionDevicePolicy env (some cap) s r).2 =
        recordAndCheckDeviceLimit env (some cap) true s r := by
  unfold applySubscriptionDevicePolicy
  cases getDeviceLockoutRemaining s r.now with
  | some remaining => exact .inl rfl
  | none =>
    rw [Option.getD_some, if_neg (not_le.mpr hcap)]
    exact .inr rfl

theorem card_countedSlots_step_le (hcap : 0 < cap) {s : DeviceState} {r : DeviceRequest}
    (h : (countedSlots env s.ips r.now).card ≤ cap) :
    (countedSlots env (applySubscriptionDevicePolicy env (some cap) s r).2.ips r.now).card ≤
      cap := by
  rcases applyPolicy_snd env hcap s r with hsame | hrecord
  · rw [hsame]
    exact h
  · rw [hrecord]
    exact card_countedSlots_record_le hcap h

theorem card_countedSlots_served_le (hcap : 0 < cap) {s : DeviceState} {t : Int}
    (h : (countedSlots env s.ips t).card ≤ cap) (rs : List DeviceRequest) {now : Int}
    (htimes : (t :: rs.map DeviceRequest.now ++ [now]).Pairwise (· ≤ ·)) :
    (countedSlots env (served env cap s rs).ips now).card ≤ cap := by
  have hlater : ∀ {s : DeviceState} {t now : Int}, (countedSlots env s.ips t).card ≤ cap → t ≤ now →
      (countedSlots env s.ips now).card ≤ cap := by
    intro s t now h hle
    have hcard := Finset.card_le_card (countedSlots_anti env s.ips hle)
    omega
  induction rs generalizing s t with
  | nil => exact hlater h (by simpa using htimes)
  | cons r rest ih =>
    rw [List.map_cons, List.cons_append, List.pairwise_cons] at htimes
    exact ih (card_countedSlots_step_le hcap (hlater h (htimes.1 _ (by simp)))) htimes.2

end Run

/-- **The device limit holds over time.** -/
theorem device_limit_holds (env : Surroundings) (cap : Int) (hcap : 0 < cap) (s : DeviceState)
    (t : Int)
    (hslots : (countedSlots env s.ips t).card ≤ cap) (before : List DeviceRequest)
    (r : DeviceRequest)
    (htimes : (t :: before.map DeviceRequest.now ++ [r.now]).Pairwise (· ≤ ·)) :
    (countedSlots env (served env cap s (before ++ [r])).ips r.now).card ≤ cap ∧
      ((env.classifyClientPlatform r.userAgent).text ∈
          countedSlots env (served env cap s before).ips r.now →
        (served env cap s (before ++ [r])).lockoutUntil =
          (served env cap s before).lockoutUntil) := by
  have hbefore := card_countedSlots_served_le hcap hslots before htimes
  rw [served, List.foldl_append, List.foldl_cons, List.foldl_nil, ← served]
  refine ⟨card_countedSlots_step_le hcap hbefore, fun hactive => ?_⟩
  rcases applyPolicy_snd env hcap (served env cap s before) r with hsame | hrecord
  · rw [hsame]
  · rw [hrecord, lockoutUntil_record hcap hbefore hactive]

def phoneAndDesktop : Surroundings where
  browserPattern _ := false
  vpnClientPattern _ := true
  linkPreviewPattern _ := false
  classifyClientPlatform ua := if ua = "Shadowrocket" then .ios else .windows
  infrastructureIps _ := false

theorem desktop_locked_out : (served phoneAndDesktop 1 { ips := .empty }
      [⟨0, "1.1.1.1", "Shadowrocket", ""⟩, ⟨9, "2.2.2.2", "v2rayN", ""⟩]).lockoutUntil =
        some (9 + deviceLockout) ∧
      (countedSlots phoneAndDesktop (served phoneAndDesktop 1 { ips := .empty }
        ([⟨0, "1.1.1.1", "Shadowrocket", ""⟩] ++
          [⟨9, "3.3.3.3", "Shadowrocket", ""⟩])).ips 9).card ≤ (1 : Int) :=
  ⟨by decide, (device_limit_holds phoneAndDesktop 1 (by decide) { ips := .empty } 0 (by decide)
    [⟨0, "1.1.1.1", "Shadowrocket", ""⟩] ⟨9, "3.3.3.3", "Shadowrocket", ""⟩ (by decide)).1⟩

end Shahkar.Utils
