import Shahkar.Db.Crud
import Shahkar.Xray.Config

/-!
# What an edit leaves alone

The API promises that fields which are null or omitted are not modified; the branches of
`update_user` test for presence in three ways, and some of them write to the field of another
(`update_frame_iff`).
-/

namespace Shahkar.Db

open Shahkar.Lib Shahkar.Xray

inductive ResetStrategy
  | noReset
  | day
  | week
  | month
  | year
  deriving DecidableEq

structure StoredProxy (S : Type) where
  settings : S
  excludedInbounds : List String
  deriving DecidableEq

/-- A user with the other editable columns, and the one proxy it may have of a type. -/
structure Profile (J S : Type) extends User where
  note : Option String := none
  clientProfile : Option String := none
  dataLimitResetStrategy : ResetStrategy := .noReset
  routingPreset : Option String := none
  dnsPolicy : Option J := none
  sessionLimitMinutes : Option Int := none
  portalEnabled : Bool := false
  hashedPortalPassword : Option String := none
  portalPasswordResetAt : Option Int := none
  proxies : ProxyType → Option (StoredProxy S) := fun _ => none

structure ProfileModify (J P : Type) extends UserModify where
  note : Option String := none
  clientProfile : Option String := none
  dataLimitResetStrategy : Option ResetStrategy := none
  routingPreset : Option (Option String) := none
  dnsPolicy : Option (Option J) := none
  sessionLimitMinutes : Option (Option Int) := none
  portalEnabled : Option Bool := none
  portalPassword : Option String := none
  proxies : List (ProxyType × P) := []
  inbounds : List (ProxyType × List String) := []

structure UpdateEnv (S P : Type) where
  hash : String → String
  applyProxyPatch : ProxyType → Option S → P → S
  inboundsByProtocol : ProxyType → List String
  repairShadowsocks : S → List String → Option S
  requiredAppProxies : List ProxyType
  defaultSettings : ProxyType → S

section Update

variable {J S P : Type} (env : UpdateEnv S P) (now : Int) (modify : ProfileModify J P)
  (u : Profile J S)

def patchedProxies (type : ProxyType) : Option (StoredProxy S) :=
  if modify.proxies.isEmpty then u.proxies type
  else (modify.proxies.lookup type).map fun patch =>
    { settings := env.applyProxyPatch type ((u.proxies type).map (·.settings)) patch
      excludedInbounds := ((u.proxies type).map (·.excludedInbounds)).getD [] }

def repairedSettings (type : ProxyType) (settings : S) : S :=
  if type = .shadowsocks ∧ (u.proxies type).isSome then
    ((modify.inbounds.lookup type).bind fun tags =>
      if tags.isEmpty then none else env.repairShadowsocks settings tags).getD settings
  else settings

def assignedProxies (type : ProxyType) : Option (StoredProxy S) :=
  (patchedProxies env modify u type).map fun p =>
    { settings := repairedSettings env modify u type p.settings
      excludedInbounds := match modify.inbounds.lookup type with
        | none => p.excludedInbounds
        | some tags => (env.inboundsByProtocol type).filter (· ∉ tags) }

def asksPortal : Bool := modify.portalEnabled = some true ∨ modify.portalPassword.any (· ≠ "")

def ensuredProxies (type : ProxyType) : Option (StoredProxy S) :=
  (assignedProxies env modify u type).or
    (if asksPortal modify ∧ type ∈ env.requiredAppProxies ∧ (u.proxies type).isNone then
      some ⟨env.defaultSettings type, []⟩
    else none)

def updatedProfile : Profile J S where
  toUser := updatedUser now modify.toUserModify u.toUser
  note := (modify.note.map fun note => if note = "" then none else some note).getD u.note
  clientProfile := modify.clientProfile.or u.clientProfile
  dataLimitResetStrategy := modify.dataLimitResetStrategy.getD u.dataLimitResetStrategy
  routingPreset := (modify.routingPreset.map (·.filter (· ≠ ""))).getD u.routingPreset
  dnsPolicy := modify.dnsPolicy.getD u.dnsPolicy
  sessionLimitMinutes := (modify.sessionLimitMinutes.map orNone).getD u.sessionLimitMinutes
  portalEnabled := modify.portalPassword.any (· ≠ "") || modify.portalEnabled.getD u.portalEnabled
  hashedPortalPassword := ((modify.portalPassword.filter (· ≠ "")).map env.hash).or
    (if modify.portalEnabled = some false then none else u.hashedPortalPassword)
  portalPasswordResetAt :=
    if modify.portalPassword.any (· ≠ "") then some now else u.portalPasswordResetAt
  proxies := ensuredProxies env modify u

/-- Fields that are null or omitted are not modified. -/
@[mk_iff] structure Framed (v : Profile J S) : Prop where
  others : { v.toUser with
    status := u.status, usedTraffic := u.usedTraffic, overageTraffic := u.overageTraffic
    dataLimit := u.dataLimit, expire := u.expire
    onHoldExpireDuration := u.onHoldExpireDuration, onHoldTimeout := u.onHoldTimeout
    nextPlan := u.nextPlan, deviceLimit := u.deviceLimit
    speedLimitUp := u.speedLimitUp, speedLimitDown := u.speedLimitDown } = u.toUser
  dataLimit : modify.dataLimit.join = none → v.dataLimit = u.dataLimit
  expire : modify.expire.join = none → v.expire = u.expire
  duration : modify.onHoldExpireDuration = none → v.onHoldExpireDuration = u.onHoldExpireDuration
  timeout : modify.onHoldTimeout = none → v.onHoldTimeout = u.onHoldTimeout
  nextPlan : modify.nextPlan = none → v.nextPlan = u.nextPlan
  deviceLimit : modify.deviceLimit.join = none → v.deviceLimit = u.deviceLimit
  speedLimitUp : modify.speedLimitUp.join = none → v.speedLimitUp = u.speedLimitUp
  speedLimitDown : modify.speedLimitDown.join = none → v.speedLimitDown = u.speedLimitDown
  note : modify.note = none → v.note = u.note
  clientProfile : modify.clientProfile = none → v.clientProfile = u.clientProfile
  resetStrategy : modify.dataLimitResetStrategy = none →
    v.dataLimitResetStrategy = u.dataLimitResetStrategy
  routingPreset : modify.routingPreset.join = none → v.routingPreset = u.routingPreset
  dnsPolicy : modify.dnsPolicy.join = none → v.dnsPolicy = u.dnsPolicy
  sessionLimit : modify.sessionLimitMinutes.join = none →
    v.sessionLimitMinutes = u.sessionLimitMinutes
  portalEnabled : modify.portalEnabled = none → v.portalEnabled = u.portalEnabled
  password : modify.portalPassword = none → v.hashedPortalPassword = u.hashedPortalPassword ∧
    v.portalPasswordResetAt = u.portalPasswordResetAt
  proxies : modify.proxies = [] → ∀ type,
    (v.proxies type).map (·.settings) = (u.proxies type).map (·.settings)
  inbounds : modify.inbounds = [] → ∀ type p q, u.proxies type = some p → v.proxies type = some q →
    q.excludedInbounds = p.excludedInbounds

/-- The edits that write nothing but what they carry. -/
@[mk_iff] structure Harmless : Prop where
  -- an omitted plan is deleted
  nextPlan : modify.nextPlan = none → u.nextPlan = none
  -- a status other than on hold clears the timer
  timer : modify.status.any (· ≠ .onHold) →
    (modify.onHoldExpireDuration = none → u.onHoldExpireDuration = none) ∧
      (modify.onHoldTimeout = none → u.onHoldTimeout = none)
  -- a null is taken for a value
  nulls : (modify.deviceLimit = some none → u.deviceLimit = none) ∧
    (modify.speedLimitUp = some none → u.speedLimitUp = none) ∧
    (modify.speedLimitDown = some none → u.speedLimitDown = none) ∧
    (modify.routingPreset = some none → u.routingPreset = none) ∧
    (modify.dnsPolicy = some none → u.dnsPolicy = none) ∧
    (modify.sessionLimitMinutes = some none → u.sessionLimitMinutes = none)
  -- the portal and its password go together, and need proxies
  password : modify.portalEnabled = some false → modify.portalPassword = none →
    u.hashedPortalPassword = none
  portalEnabled : modify.portalPassword.any (· ≠ "") → modify.portalEnabled = none → u.portalEnabled
  appProxies : modify.proxies = [] → asksPortal modify →
    ∀ type ∈ env.requiredAppProxies, (u.proxies type).isSome
  -- the settings follow the inbounds
  shadowsocks : modify.proxies = [] → ∀ p, u.proxies .shadowsocks = some p →
    repairedSettings env modify u .shadowsocks p.settings = p.settings

variable {modify u}

theorem null_kept_iff {α : Type} {f : Option α → Option α} (hf : f none = none)
    (field : Option (Option α)) (stored : Option α) :
    (field.join = none → (field.map f).getD stored = stored) ↔
      (field = some none → stored = none) := by
  rcases field with _ | _ | value
  · simp
  · simp [hf, eq_comm]
  · simp

theorem timer_kept_iff (status : Option UserStatus) (field stored : Option Int) :
    (field = none → field.or (keptTimer status field stored) = stored) ↔
      (status.any (· ≠ .onHold) → field = none → stored = none) := by
  cases field with
  | none =>
    by_cases hstatus : status.any (· ≠ .onHold) = true
    · simp only [keptTimer, hstatus]
      simp [eq_comm]
    · simp only [keptTimer, hstatus]
      simp
  | some value => simp

end Update

section Frame

variable {J S P : Type} {env : UpdateEnv S P} {modify : ProfileModify J P} {u : Profile J S}

theorem settings_ensuredProxies (hproxies : modify.proxies = []) (type : ProxyType) :
    (ensuredProxies env modify u type).map (·.settings) = (u.proxies type).map (·.settings) ↔
      (asksPortal modify → type ∈ env.requiredAppProxies → (u.proxies type).isSome) ∧
        ∀ p, u.proxies type = some p →
          repairedSettings env modify u type p.settings = p.settings := by
  unfold ensuredProxies assignedProxies patchedProxies
  cases hstored : u.proxies type with
  | none => by_cases hasks : asksPortal modify <;> simp [hproxies, hasks]
  | some p => simp [hproxies]

theorem proxies_framed_iff (hproxies : modify.proxies = []) :
    (∀ type, (ensuredProxies env modify u type).map (·.settings) =
      (u.proxies type).map (·.settings)) ↔
      (asksPortal modify → ∀ type ∈ env.requiredAppProxies, (u.proxies type).isSome) ∧
        ∀ p, u.proxies .shadowsocks = some p →
          repairedSettings env modify u .shadowsocks p.settings = p.settings := by
  simp only [settings_ensuredProxies hproxies]
  constructor
  · intro h
    exact ⟨fun hasks type => (h type).1 hasks, (h .shadowsocks).2⟩
  · intro h type
    refine ⟨fun hasks => h.1 hasks type, fun p hp => ?_⟩
    by_cases hss : type = .shadowsocks
    · subst hss
      exact h.2 p hp
    · exact if_neg fun hboth => hss hboth.1

theorem inbounds_kept (hinbounds : modify.inbounds = []) {type : ProxyType} {p q : StoredProxy S}
    (hp : u.proxies type = some p) (hq : ensuredProxies env modify u type = some q) :
    q.excludedInbounds = p.excludedInbounds := by
  simp only [ensuredProxies, hp, Option.isNone_some, Bool.false_eq_true, and_false, if_false,
    Option.or_none, assignedProxies, Option.map_eq_some_iff, hinbounds, List.lookup_nil] at hq
  obtain ⟨r, hr, rfl⟩ := hq
  unfold patchedProxies at hr
  split_ifs at hr
  · obtain rfl := Option.some.inj (hr.symm.trans hp)
    rfl
  · obtain ⟨patch, -, rfl⟩ := Option.map_eq_some_iff.mp hr
    simp [hp]

/-- **An edit modifies nothing that it does not carry** exactly if it is harmless. -/
theorem update_frame_iff (env : UpdateEnv S P) (now : Int) (modify : ProfileModify J P)
    (u : Profile J S) :
    Framed modify u (updatedProfile env now modify u) ↔ Harmless env modify u := by
  obtain ⟨status, used, overage, hrow⟩ := updatedUser_row now modify.toUserModify u.toUser
  have hpolicy := null_kept_iff (f := id) rfl modify.dnsPolicy u.dnsPolicy
  rw [Option.map_id, id] at hpolicy
  have hproxies := @proxies_framed_iff _ _ _ env modify u
  have hlimit : ∀ field stored, field.join = none → nextLimit field stored = stored := by
    intro field stored hnull
    rw [nextLimit, hnull]
  have huser : (updatedProfile env now modify u).toUser = _ := hrow
  rw [framed_iff, harmless_iff, huser]
  simp only [updatedProfile, timer_kept_iff, null_kept_iff (f := orNone) rfl, hpolicy,
    null_kept_iff (f := (·.filter (· ≠ ""))) rfl, forall_congr' hproxies]
  constructor
  · rintro ⟨-, -, -, hdur, hout, hplan, hdev, hup, hdown, -, -, -, hpre, hdns, hses, hon, hpw, hpx,
      -⟩
    refine ⟨fun h => (h ▸ hplan h).symm, fun hs => ⟨hdur hs, hout hs⟩,
      ⟨hdev, hup, hdown, hpre, hdns, hses⟩, fun hoff h => ?_, fun hany h => ?_, fun h => (hpx h).1,
      fun h => (hpx h).2⟩
    · have hhash := (hpw h).1
      rw [h, if_pos hoff] at hhash
      exact hhash.symm
    · have hportal := hon h
      rw [hany, Bool.true_or] at hportal
      exact hportal.symm
  · rintro ⟨hplan, htimer, ⟨hdev, hup, hdown, hpre, hdns, hses⟩, hpw, hon, happ, hss⟩
    refine ⟨trivial, hlimit _ _, hlimit _ _, fun hs => (htimer hs).1, fun hs => (htimer hs).2,
      fun h => h.trans (hplan h).symm, hdev, hup, hdown, fun h => by rw [h]; rfl,
      fun h => by rw [h]; rfl, fun h => by rw [h]; rfl, hpre, hdns, hses, fun h => ?_, fun h => ?_,
      fun h => ⟨happ h, hss h⟩, fun h type p q => inbounds_kept h⟩
    · cases hany : modify.portalPassword.any (· ≠ "") with
      | false => rw [h]; rfl
      | true => exact (hon hany h).symm
    · rw [h]
      refine ⟨?_, rfl⟩
      by_cases hoff : modify.portalEnabled = some false
      · rw [if_pos hoff]
        exact (hpw hoff h).symm
      · rw [if_neg hoff]
        rfl

end Frame

def plainEnv : UpdateEnv String String where
  hash := id
  applyProxyPatch := fun _ _ patch => patch
  inboundsByProtocol := fun _ => ["in"]
  repairShadowsocks := fun _ _ => some "2022"
  requiredAppProxies := [.vless]
  defaultSettings := fun _ => "default"

def edited : Profile Unit String where
  username := "alice"
  status := .onHold
  onHoldExpireDuration := some 2592000
  nextPlan := some ⟨some 50, none, false, true⟩
  deviceLimit := some 2
  hashedPortalPassword := some "secret"
  proxies := fun type => if type = .shadowsocks then some ⟨"aes", []⟩ else none

/-- **An edit modifies more than it carries.** -/
theorem note_deletes_next_plan :
    let update := fun modify => updatedProfile plainEnv 0 modify edited
    (update { note := some "hi" }).nextPlan = none ∧
      (update { status := some .active }).onHoldExpireDuration = none ∧
      (update { deviceLimit := some none }).deviceLimit = none ∧
      (update { portalEnabled := some false }).hashedPortalPassword = none ∧
      (update { portalEnabled := some true }).proxies .vless = some ⟨"default", []⟩ ∧
      (update { inbounds := [(.shadowsocks, ["in"])] }).proxies .shadowsocks =
        some ⟨"2022", []⟩ := by
  decide +kernel

end Shahkar.Db
