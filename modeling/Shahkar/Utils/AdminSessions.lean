import Shahkar.Lib.Dict
import Shahkar.Lib.Transition

/-!
# Revoking the sessions of an admin (`app/utils/admin_sessions.py`)

Each call loads one shared file, changes what it has loaded, opens the file, which empties it, and
writes it.
-/

namespace Shahkar.Utils

open Shahkar.Lib

/-!
### Tokens
-/

def usPerSecond : Nat := 1000000

inductive Access
  | admin
  | sudo
  | other (name : String)
  deriving DecidableEq

structure AdminToken where
  sub : String
  access : Access
  iat : Option Nat
  exp : Option Nat

def createAdminToken (expireMinutes : Nat) (username : String) (isSudo : Bool) (now : Nat) :
    AdminToken where
  sub := username
  access := if isSudo then .sudo else .admin
  iat := some (now / usPerSecond)
  exp := if 0 < expireMinutes then some ((now + expireMinutes * 60 * usPerSecond) / usPerSecond)
    else none

def AdminToken.timely (token : AdminToken) (now : Nat) : Bool :=
  (token.iat.all fun iat => iat * usPerSecond ≤ now) &&
    token.exp.all fun exp => now < exp * usPerSecond

/-!
### The file
-/

structure LoginSession where
  username : String
  ip : String
  isSudo : Bool
  iat : Nat

structure SessionData where
  sessions : List LoginSession := []
  revokedBefore : Dict String Nat := .empty

inductive SessionFile
  | missing
  | incomplete
  | written (data : SessionData)

def SessionFile.load : SessionFile → SessionData
  | .missing | .incomplete => {}
  | .written data => data

def maxSessions : Nat := 200

def SessionData.cutoff (data : SessionData) (username : String) : Nat :=
  (data.revokedBefore.get? username).getD 0

inductive Update
  | login (session : LoginSession)
  | revoke (username : String) (ts : Nat)

def Update.apply : Update → SessionData → SessionData
  | .login session, data =>
    { data with sessions := (session :: data.sessions).take maxSessions }
  | .revoke username ts, data =>
    { data with
      revokedBefore := data.revokedBefore.set username (max (data.cutoff username) ts) }

def isTokenRevoked (data : SessionData) (username : String) (iat : Option Nat) : Bool :=
  iat.any fun iat => iat * usPerSecond < data.cutoff username

structure AdminPayload where
  username : String
  isSudo : Bool
  iat : Option Nat

def getAdminPayload (file : SessionFile) (now : Nat) (token : AdminToken) : Option AdminPayload :=
  if ¬ token.timely now then none
  else if token.sub = "" ∨ token.access ≠ .admin ∧ token.access ≠ .sudo then none
  else if isTokenRevoked file.load token.sub token.iat then none
  else some { username := token.sub, isSudo := token.access = .sudo, iat := token.iat }

inductive CallPhase
  | loading
  | opening (data : SessionData)
  | writing (data : SessionData)

structure Call where
  update : Update
  phase : CallPhase

structure Revocation where
  username : String
  calledAt : Nat
  deriving DecidableEq

/-- The file, the calls at work in any thread or process, and the revocations that have returned. -/
structure Sessions where
  now : Nat
  file : SessionFile
  calls : Dict Nat Call := .empty
  returned : List Revocation := []

inductive SessionAct
  | elapse (us : Nat)
  | login (i : Nat) (username ip : String) (isSudo : Bool) (iat : Option Nat)
  | revoke (i : Nat) (username : String)
  | proceed (i : Nat)

namespace Sessions

variable (s : Sessions)

def start (i : Nat) (update : Update) : Option Sessions :=
  match s.calls.get? i with
  | none => some { s with calls := s.calls.set i { update, phase := .loading } }
  | some _ => none

def finish (i : Nat) (update : Update) (data : SessionData) : Sessions :=
  { s with
    file := .written data
    calls := s.calls.erase i
    returned := match update with
      | .login _ => s.returned
      | .revoke username ts => { username, calledAt := ts } :: s.returned }

def step : SessionAct → Option Sessions
  | .elapse us => some { s with now := s.now + us }
  | .login i username ip isSudo iat =>
    s.start i (.login { username, ip, isSudo, iat := iat.getD s.now })
  | .revoke i username => s.start i (.revoke username s.now)
  | .proceed i =>
    (s.calls.get? i).map fun call =>
      match call.phase with
      | .loading =>
        { s with
          calls := s.calls.set i { call with phase := .opening (call.update.apply s.file.load) } }
      | .opening data =>
        { s with
          file := .incomplete
          calls := s.calls.set i { call with phase := .writing data } }
      | .writing data => s.finish i call.update data

def oneByOne : SessionAct → Bool
  | .login .. | .revoke .. => s.calls.entries.isEmpty
  | .elapse _ | .proceed _ => true

def readable : Bool := s.calls.entries.all fun e => !e.2.phase matches .writing _

variable {s} {data : SessionData} {username : String}

theorem cutoff_apply_revoke (other : String) (ts : Nat) :
    ((Update.revoke other ts).apply data).cutoff username =
      if username = other then max (data.cutoff other) ts else data.cutoff username := by
  simp only [SessionData.cutoff, Update.apply, Dict.get?_set]
  split <;> rfl

structure Tracks (data : SessionData) (s : Sessions) : Prop where
  past : ∀ username, data.cutoff username ≤ s.now
  lower : ∀ r ∈ s.returned, r.calledAt ≤ data.cutoff r.username
  exact : ∀ r ∈ s.returned, ∃ r' ∈ s.returned, r'.username = r.username ∧
    data.cutoff r.username = r'.calledAt

def Current (data : SessionData) (now : Nat) : Update → Prop
  | .login _ => True
  | .revoke _ ts => ts ≤ now ∧ ∀ username, data.cutoff username ≤ ts

def Found (data : SessionData) (file : SessionFile) (call : Call) : Prop :=
  match call.phase with
  | .loading => file.load = data
  | .opening new => file.load = data ∧ new = call.update.apply data
  | .writing new => new = call.update.apply data

structure Orderly (data : SessionData) (s : Sessions) : Prop where
  tracks : Tracks data s
  idle : (∀ i, s.calls.get? i = none) → s.file.load = data
  alone : ∀ i call, s.calls.get? i = some call → ∀ j, j ≠ i → s.calls.get? j = none
  current : ∀ i call, s.calls.get? i = some call → Current data s.now call.update
  found : ∀ i call, s.calls.get? i = some call → Found data s.file call

variable {i : Nat} {update : Update} {s' : Sessions} {file : SessionFile}

theorem Current.elapse {now us : Nat} (h : Current data now update) :
    Current data (now + us) update := by
  cases update with
  | login session => trivial
  | revoke username ts => exact ⟨Nat.le_add_right_of_le h.1, h.2⟩

theorem Orderly.elapse {us : Nat} (h : Orderly data s) :
    Orderly data { s with now := s.now + us } where
  tracks :=
    { past := fun username => Nat.le_add_right_of_le (h.tracks.past username)
      lower := h.tracks.lower
      exact := h.tracks.exact }
  idle := h.idle
  alone := h.alone
  current i call hi := (h.current i call hi).elapse
  found := h.found

theorem Orderly.start (h : Orderly data s) (hidle : ∀ i, s.calls.get? i = none)
    (hcurrent : Current data s.now update)
    (hstart : s.start i update = some s') : Orderly data s' := by
  have hcall : ∀ j call, ((s.calls.set i { update, phase := .loading }).get? j = some call) →
      j = i ∧ call = { update, phase := .loading } := by
    intro j call hj
    rw [Dict.get?_set] at hj
    split at hj
    · next hji => exact ⟨hji, (Option.some.inj hj).symm⟩
    · rw [hidle j] at hj
      cases hj
  rw [Sessions.start, hidle i] at hstart
  obtain rfl := Option.some.inj hstart
  constructor
  · exact ⟨h.tracks.past, h.tracks.lower, h.tracks.exact⟩
  · intro _
    exact h.idle hidle
  · intro j call hj k hkj
    obtain ⟨rfl, -⟩ := hcall j call hj
    simp [Dict.get?_set, hkj, hidle k]
  · intro j call hj
    obtain ⟨-, rfl⟩ := hcall j call hj
    exact hcurrent
  · intro j call hj
    obtain ⟨-, rfl⟩ := hcall j call hj
    exact h.idle hidle

theorem Orderly.advance {call next : Call} (h : Orderly data s) (hi : s.calls.get? i = some call)
    (hupdate : next.update = call.update) (hfound : Found data file next) :
    Orderly data { s with file, calls := s.calls.set i next } := by
  have hcall : ∀ j c, ((s.calls.set i next).get? j = some c) → j = i ∧ c = next := by
    intro j c hj
    rw [Dict.get?_set] at hj
    split at hj
    · next hji => exact ⟨hji, (Option.some.inj hj).symm⟩
    · next hji =>
        rw [h.alone i call hi j hji] at hj
        cases hj
  constructor
  · exact ⟨h.tracks.past, h.tracks.lower, h.tracks.exact⟩
  · intro hidle
    have hnone := hidle i
    rw [Dict.get?_set, if_pos rfl] at hnone
    cases hnone
  · intro j c hj k hkj
    obtain ⟨rfl, -⟩ := hcall j c hj
    simp [Dict.get?_set, hkj, h.alone _ call hi k hkj]
  · intro j c hj
    obtain ⟨-, rfl⟩ := hcall j c hj
    rw [hupdate]
    exact h.current i call hi
  · intro j c hj
    obtain ⟨-, rfl⟩ := hcall j c hj
    exact hfound

theorem Tracks.finish (h : Tracks data s) (hcurrent : Current data s.now update) :
    Tracks (update.apply data) (s.finish i update (update.apply data)) := by
  cases update with
  | login session => exact ⟨h.past, h.lower, h.exact⟩
  | revoke other ts =>
    obtain ⟨hnow, hbefore⟩ := hcurrent
    have hcutoff : ∀ name, ((Update.revoke other ts).apply data).cutoff name =
        if name = other then ts else data.cutoff name := by
      intro name
      rw [cutoff_apply_revoke, Nat.max_eq_right (hbefore other)]
    constructor
    · intro name
      rw [hcutoff]
      split
      · exact hnow
      · exact h.past name
    · intro r hr
      rw [hcutoff]
      rcases List.mem_cons.mp hr with rfl | hr
      · simp
      · split
        · exact Nat.le_trans (h.lower r hr) (hbefore _)
        · exact h.lower r hr
    · intro r hr
      rw [hcutoff]
      rcases List.mem_cons.mp hr with rfl | hr
      · exact ⟨_, List.mem_cons_self, rfl, by simp⟩
      · split
        · next hname => exact ⟨_, List.mem_cons_self, hname.symm, rfl⟩
        · obtain ⟨r', hr', hname, hexact⟩ := h.exact r hr
          exact ⟨r', List.mem_cons_of_mem _ hr', hname, hexact⟩

theorem Orderly.finish {call : Call} (h : Orderly data s) (hi : s.calls.get? i = some call) :
    Orderly (call.update.apply data) (s.finish i call.update (call.update.apply data)) := by
  have hnone : ∀ j, (s.finish i call.update (call.update.apply data)).calls.get? j = none := by
    intro j
    simp only [Sessions.finish, Dict.get?_erase]
    split
    · rfl
    · next hji => exact h.alone i call hi j hji
  constructor
  · exact h.tracks.finish (h.current i call hi)
  · intro _
    rfl
  · intro j c hj
    rw [hnone j] at hj
    cases hj
  · intro j c hj
    rw [hnone j] at hj
    cases hj
  · intro j c hj
    rw [hnone j] at hj
    cases hj

theorem orderly_step {a : SessionAct} (h : ∃ data, Orderly data s) (hok : s.oneByOne a)
    (hstep : s.step a = some s') : ∃ data, Orderly data s' := by
  obtain ⟨data, h⟩ := h
  have hidle : s.calls.entries.isEmpty → ∀ i, s.calls.get? i = none := by
    intro hempty i
    rw [Dict.get?, List.isEmpty_iff.mp hempty, List.lookup_nil]
  cases a with
  | elapse us =>
    obtain rfl := Option.some.inj hstep
    exact ⟨data, h.elapse⟩
  | login i username ip isSudo iat =>
    refine ⟨data, h.start (hidle hok) ?_ hstep⟩
    trivial
  | revoke i username =>
    refine ⟨data, h.start (hidle hok) ?_ hstep⟩
    exact ⟨Nat.le_refl _, h.tracks.past⟩
  | proceed i =>
    obtain ⟨call, hi, rfl⟩ := Option.map_eq_some_iff.mp hstep
    have hfound := h.found i call hi
    cases hphase : call.phase with
    | loading =>
      simp only [Found, hphase] at hfound
      exact ⟨data, h.advance hi rfl ⟨hfound, by rw [hfound]⟩⟩
    | opening new =>
      simp only [Found, hphase] at hfound
      exact ⟨data, h.advance hi rfl hfound.2⟩
    | writing new =>
      simp only [Found, hphase] at hfound
      rw [hfound]
      exact ⟨_, h.finish hi⟩

theorem Orderly.tracks_load (h : Orderly data s) (hreadable : s.readable) :
    Tracks s.file.load s := by
  by_cases hidle : ∀ i, s.calls.get? i = none
  · rw [h.idle hidle]
    exact h.tracks
  · simp only [not_forall, Option.ne_none_iff_exists'] at hidle
    obtain ⟨i, call, hi⟩ := hidle
    have hphase := List.all_eq_true.mp hreadable (i, call) (Dict.get?_eq_some_iff.mp hi)
    have hfound := h.found i call hi
    unfold Found at hfound
    split at hfound
    · rw [hfound]
      exact h.tracks
    · rw [hfound.1]
      exact h.tracks
    · next new hwriting => simp [hwriting] at hphase

theorem isTokenRevoked_some {iat : Nat} :
    isTokenRevoked data username (some iat) ↔ iat * usPerSecond < data.cutoff username := by
  rw [isTokenRevoked, Option.any_some, decide_eq_true_iff]

theorem getAdminPayload_createAdminToken {now t minutes : Nat} {isSudo : Bool}
    (hname : username ≠ "") :
    (getAdminPayload file now (createAdminToken minutes username isSudo t)).isSome ↔
      (createAdminToken minutes username isSudo t).timely now ∧
        file.load.cutoff username ≤ t / usPerSecond * usPerSecond := by
  have haccess : ¬ ((createAdminToken minutes username isSudo t).sub = "" ∨
      (createAdminToken minutes username isSudo t).access ≠ .admin ∧
        (createAdminToken minutes username isSudo t).access ≠ .sudo) := by
    cases isSudo <;> simp [createAdminToken, hname]
  have hrevoked : isTokenRevoked file.load (createAdminToken minutes username isSudo t).sub
      (createAdminToken minutes username isSudo t).iat ↔
        t / usPerSecond * usPerSecond < file.load.cutoff username := by
    rw [show (createAdminToken minutes username isSudo t).iat = some (t / usPerSecond) from rfl]
    exact isTokenRevoked_some
  unfold getAdminPayload
  by_cases htimely : (createAdminToken minutes username isSudo t).timely now
  · rw [if_neg (not_not.mpr htimely), if_neg haccess, and_iff_right htimely, ← Nat.not_lt,
      ← hrevoked]
    split
    · next hcut => exact iff_of_false Bool.false_ne_true (not_not.mpr hcut)
    · next hcut => exact iff_of_true rfl hcut
  · rw [if_pos htimely]
    exact iff_of_false Bool.false_ne_true fun h => htimely h.1

/-- **A revocation is final, and concerns the past only**, in every run of calls one by one. -/
theorem revocation_final (s₀ : Sessions) (hcalls : s₀.calls = .empty) (hreturned : s₀.returned = [])
    (hpast : ∀ username, s₀.file.load.cutoff username ≤ s₀.now) (s : Sessions)
    (hrun : Run step (fun s a => s.oneByOne a) s₀ s) (hreadable : s.readable)
    (minutes : Nat) (username : String) (isSudo : Bool) (t : Nat) :
    (∀ r ∈ s.returned, r.username = username → t < r.calledAt →
      getAdminPayload s.file s.now (createAdminToken minutes username isSudo t) = none) ∧
    ((∃ r ∈ s.returned, r.username = username) →
      username ≠ "" → (createAdminToken minutes username isSudo t).timely s.now →
      ((getAdminPayload s.file s.now (createAdminToken minutes username isSudo t)).isSome ↔
        ∀ r ∈ s.returned, r.username = username → r.calledAt ≤ t / usPerSecond * usPerSecond)) := by
  have hinit : ∃ data, Orderly data s₀ := by
    have hnone : ∀ i, s₀.calls.get? i = none := by simp [hcalls]
    refine ⟨s₀.file.load, ⟨hpast, ?_, ?_⟩, fun _ => rfl, ?_, ?_, ?_⟩
    all_goals simp [hreturned, hnone]
  obtain ⟨data, horderly⟩ :=
    hrun.invariant (fun s => ∃ data, Orderly data s) hinit orderly_step
  have htracks := horderly.tracks_load hreadable
  constructor
  · intro r hr hname hbefore
    have hcut : t < s.file.load.cutoff username := by
      have := htracks.lower r hr
      rw [hname] at this
      omega
    by_cases hempty : username = ""
    · simp [getAdminPayload, createAdminToken, hempty]
    · refine Option.not_isSome_iff_eq_none.mp fun hsome => ?_
      have hissued := ((getAdminPayload_createAdminToken hempty).mp hsome).2
      have := Nat.div_mul_le_self t usPerSecond
      omega
  · intro hrevoked hempty htimely
    rw [getAdminPayload_createAdminToken hempty, and_iff_right htimely]
    constructor
    · intro hissued r hr hname
      exact Nat.le_trans (hname ▸ htracks.lower r hr) hissued
    · intro hseconds
      obtain ⟨r, hr, hname⟩ := hrevoked
      obtain ⟨r', hr', hname', hexact⟩ := htracks.exact r hr
      rw [← hname, hexact]
      exact hseconds r' hr' (hname'.trans hname)

def quiet : Sessions where
  now := 100500000
  file := .missing

def otherLogin (i : Nat) : SessionAct := .login i "helper" "10.0.0.9" false none

def proceeds (i n : Nat) : List SessionAct := List.replicate n (.proceed i)

def runFrom (s : Sessions) (phases : List (List SessionAct)) : Option Sessions :=
  execGuarded step (fun _ _ => True) s phases.flatten

def acceptsIssuedAt (s : Sessions) (t : Nat) : Bool :=
  (getAdminPayload s.file s.now (createAdminToken 60 "boss" true t)).isSome

/-- **A revocation that is lost or not seen, and a login that is rejected.** -/
theorem revocation_lost :
    ((runFrom quiet [[otherLogin 0, .proceed 0, .revoke 1 "boss"], proceeds 1 3, proceeds 0 2]).map
      fun s => (s.returned.length, s.acceptsIssuedAt 50000000)) = some (1, true) ∧
    ((runFrom quiet [[.revoke 0 "boss"], proceeds 0 3, [otherLogin 1], proceeds 1 2, [otherLogin 2],
      proceeds 2 1, proceeds 1 1, proceeds 2 2]).map
      fun s => (s.returned.length, s.acceptsIssuedAt 50000000)) = some (1, true) ∧
    ((runFrom quiet [[.revoke 0 "boss"], proceeds 0 3, [otherLogin 1], proceeds 1 2]).map
      fun s => (s.returned.length, s.acceptsIssuedAt 50000000)) = some (1, true) ∧
    ((runFrom quiet [[.revoke 0 "boss"], proceeds 0 3, [.elapse 200000]]).map
      fun s => (s.returned.length, s.acceptsIssuedAt s.now)) = some (1, false) := by
  refine ⟨?_, ?_, ?_, ?_⟩
  all_goals decide +kernel

theorem old_token_rejected_new_accepted :
    ∃ s, Run step (fun s a => s.oneByOne a) quiet s ∧ s.returned.length = 1 ∧
      s.acceptsIssuedAt 50000000 = false ∧ s.acceptsIssuedAt 101200000 = true := by
  have hexec : (execGuarded step (fun s a => s.oneByOne a) quiet
      (.flatten [[otherLogin 0], proceeds 0 3, [.revoke 1 "boss"], proceeds 1 3, [.elapse 700000],
        [otherLogin 2], proceeds 2 3])).any (fun s =>
        s.readable && s.now = 101200000 && s.returned = [⟨"boss", 100500000⟩]) = true := by
    decide +kernel
  obtain ⟨s, hs, hend⟩ := (Option.any_eq_true _ _).mp hexec
  simp only [Bool.and_eq_true, decide_eq_true_eq] at hend
  obtain ⟨⟨hreadable, hnow⟩, hreturned⟩ := hend
  have hrun := Run.of_execGuarded _ hs
  have hfinal := revocation_final quiet rfl rfl (fun _ => Nat.zero_le _) s hrun hreadable 60 "boss"
    true
  have hlast : (⟨"boss", 100500000⟩ : Revocation) ∈ s.returned := by simp [hreturned]
  refine ⟨s, hrun, by rw [hreturned]; rfl, ?_, ?_⟩
  · rw [acceptsIssuedAt, (hfinal 50000000).1 _ hlast rfl (by decide)]
    rfl
  · refine ((hfinal 101200000).2 ⟨_, hlast, rfl⟩ (by decide) (by rw [hnow]; decide)).mpr ?_
    rw [hreturned]
    intro r hr _
    rw [List.mem_singleton.mp hr]
    decide

end Sessions

end Shahkar.Utils
