import Mathlib.Data.Finset.Card
import Shahkar.Lib.Transition
import Shahkar.Xray.Config

/-!
# The cache of rendered subscriptions (`generate_subscription` in `app/subscription/share.py`)

A body is kept for 20 seconds under a key that has the *names* of the user's protocols, but neither
credentials nor tags, so it may have been rendered for an earlier version of the user.
-/

namespace Shahkar.Subscription

open Shahkar.Lib Shahkar.Xray

/-!
### Calls
-/

structure SubUser where
  id : Nat
  proxies : Dict ProxyType (List String) := .empty
  inbounds : Dict ProxyType (List String) := .empty
  routingPreset : String := ""
  dnsPolicy : String := ""
  familyControls : String := ""

def SubUser.secrets (u : SubUser) : Set String :=
  {x | ∃ e ∈ u.proxies.entries ++ u.inbounds.entries, x ∈ e.2}

inductive ConfigFormat
  | v2ray
  | clashMeta
  | clash
  | singBox
  | outline
  | v2rayJson
  | surge
  | loon
  | quantumult
  deriving Repr, DecidableEq

structure SubCall where
  user : SubUser
  format : ConfigFormat
  asBase64 : Bool := false
  reverse : Bool := false
  inboundFilter : Option String := none
  excludeProtocols : Finset String := ∅

structure CacheKey where
  id : Nat
  format : ConfigFormat
  asBase64 : Bool
  reverse : Bool
  inboundFilter : String
  excludeProtocols : Finset String
  routingPreset : String
  dnsPolicy : String
  familyControls : String
  inboundKeys : Finset ProxyType
  proxyKeys : Finset ProxyType
  deriving DecidableEq

def subscriptionCacheKey (c : SubCall) : CacheKey where
  id := c.user.id
  format := c.format
  asBase64 := c.asBase64
  reverse := c.reverse
  inboundFilter := c.inboundFilter.getD ""
  excludeProtocols := c.excludeProtocols
  routingPreset := c.user.routingPreset
  dnsPolicy := c.user.dnsPolicy
  familyControls := c.user.familyControls
  inboundKeys := c.user.inbounds.keys.toFinset
  proxyKeys := c.user.proxies.keys.toFinset

structure Renderer (World Body : Type) where
  render : World → SubCall → Body
  shown : Body → Set String
  own : ∀ world call, shown (render world call) ⊆ call.user.secrets

/-!
### The cache
-/

def subCacheTtl : Int := 20000000

structure Flight where
  call : SubCall
  now : Int

/-- The cache, the calls under way, and what has happened so far. -/
structure SubState (Body : Type) where
  cache : Dict CacheKey (Int × Body) := .empty
  flights : Dict Nat Flight := .empty
  clock : Int := 0
  started : List Flight := []
  returned : List (SubCall × Body) := []

inductive SubEvent (World : Type)
  | start (thread : Nat) (call : SubCall) (now : Int)
  | finish (thread : Nat) (world : World)

section Machine

variable {World Body : Type} (R : Renderer World Body)

def storeBody (cache : Dict CacheKey (Int × Body)) (f : Flight) (body : Body) :
    Dict CacheKey (Int × Body) :=
  let alive := if 4096 < cache.entries.length then cache.filter fun _ v => f.now < v.1 else cache
  alive.set (subscriptionCacheKey f.call) (f.now + subCacheTtl, body)

def shareStep (s : SubState Body) : SubEvent World → Option (SubState Body)
  | .start thread call now =>
    if now < s.clock ∨ (s.flights.get? thread).isSome then none
    else
      let s : SubState Body := { s with clock := now, started := s.started ++ [⟨call, now⟩] }
      match (s.cache.get? (subscriptionCacheKey call)).filter fun hit => now < hit.1 with
      | some hit => some { s with returned := s.returned ++ [(call, hit.2)] }
      | none => some { s with flights := s.flights.set thread ⟨call, now⟩ }
  | .finish thread world =>
    (s.flights.get? thread).map fun f =>
      let body := R.render world f.call
      { s with
        cache := storeBody s.cache f body
        flights := s.flights.erase thread
        returned := s.returned ++ [(f.call, body)] }

/-- Nothing was taken from the user since any call with the same key in the last 20 seconds. -/
def NothingRevoked (s : SubState Body) : SubEvent World → Prop
  | .start _ call now => ∀ f ∈ s.started,
      subscriptionCacheKey f.call = subscriptionCacheKey call → now < f.now + subCacheTtl →
      f.call.user.secrets ⊆ call.user.secrets
  | .finish _ _ => True

end Machine

section Runs

variable {World Body : Type} {R : Renderer World Body} {s s' : SubState Body}

structure ShareInv (R : Renderer World Body) (s : SubState Body) : Prop where
  cache : ∀ e ∈ s.cache.entries, ∃ f ∈ s.started, subscriptionCacheKey f.call = e.1 ∧
    e.2.1 = f.now + subCacheTtl ∧ R.shown e.2.2 ⊆ f.call.user.secrets
  flights : ∀ e ∈ s.flights.entries, e.2 ∈ s.started
  returned : ∀ e ∈ s.returned, R.shown e.2 ⊆ e.1.user.secrets

theorem ShareInv.start (h : ShareInv R s) {thread : Nat} {call : SubCall} {now : Int}
    (hok : NothingRevoked s (.start thread call now : SubEvent World))
    (hstep : shareStep R s (.start thread call now) = some s') : ShareInv R s' := by
  simp only [shareStep] at hstep
  split at hstep
  · cases hstep
  have hstarted : ∀ f ∈ s.started, f ∈ s.started ++ [⟨call, now⟩] :=
    fun f hf => List.mem_append_left _ hf
  have hcache : ∀ e ∈ s.cache.entries, ∃ f ∈ s.started ++ [⟨call, now⟩],
      subscriptionCacheKey f.call = e.1 ∧ e.2.1 = f.now + subCacheTtl ∧
        R.shown e.2.2 ⊆ f.call.user.secrets := by
    intro e he
    obtain ⟨f, hf, hrest⟩ := h.cache e he
    exact ⟨f, hstarted f hf, hrest⟩
  split at hstep
  · next hit hhit =>
      obtain rfl := Option.some.inj hstep
      refine ⟨hcache, fun e he => hstarted _ (h.flights e he), fun e he => ?_⟩
      rcases List.mem_append.mp he with he | he
      · exact h.returned e he
      · obtain rfl := List.mem_singleton.mp he
        obtain ⟨hget, hlive⟩ := Option.filter_eq_some_iff.mp hhit
        obtain ⟨f, hf, hkey, hexpiry, hshown⟩ := h.cache _ (Dict.get?_eq_some_iff.mp hget)
        exact hshown.trans (hok f hf hkey (hexpiry ▸ of_decide_eq_true hlive))
  · obtain rfl := Option.some.inj hstep
    refine ⟨hcache, fun e he => ?_, h.returned⟩
    rcases Dict.mem_entries_set he with rfl | he
    · exact List.mem_append_right _ List.mem_cons_self
    · exact hstarted _ (h.flights e he)

theorem ShareInv.finish (h : ShareInv R s) {thread : Nat} {world : World}
    (hstep : shareStep R s (.finish thread world) = some s') : ShareInv R s' := by
  obtain ⟨f, hf, rfl⟩ := Option.map_eq_some_iff.mp hstep
  have hflight : f ∈ s.started := h.flights _ (Dict.get?_eq_some_iff.mp hf)
  refine ⟨fun e he => ?_, fun e he => h.flights e (List.mem_of_mem_filter he), fun e he => ?_⟩
  · rcases Dict.mem_entries_set he with rfl | he
    · exact ⟨f, hflight, rfl, rfl, R.own world f.call⟩
    · split at he
      · exact h.cache e (Dict.mem_entries_filter.mp he).1
      · exact h.cache e he
  · rcases List.mem_append.mp he with he | he
    · exact h.returned e he
    · obtain rfl := List.mem_singleton.mp he
      exact R.own world f.call

end Runs

/-- **No revoked or foreign secret**, if nothing was revoked while it was cached. -/
theorem no_revoked_secret {World Body : Type} (R : Renderer World Body) (s : SubState Body)
    (hrun : Run (shareStep R) NothingRevoked {} s) :
    ∀ e ∈ s.returned, R.shown e.2 ⊆ e.1.user.secrets := by
  have hinit : ShareInv R ({} : SubState Body) :=
    ⟨fun _ he => absurd he List.not_mem_nil, fun _ he => absurd he List.not_mem_nil,
      fun _ he => absurd he List.not_mem_nil⟩
  refine (hrun.invariant (ShareInv R) hinit fun {s s' event} hinv hok hstep => ?_).returned
  cases event with
  | start thread call now => exact hinv.start hok hstep
  | finish thread world => exact hinv.finish hstep

def listing : Renderer Unit (List String) where
  render _ call := call.user.proxies.entries.flatMap Prod.snd
  shown body := {x | x ∈ body}
  own _ call := by
    intro x hx
    obtain ⟨e, he, hx⟩ := List.mem_flatMap.mp hx
    exact ⟨e, List.mem_append_left _ he, hx⟩

def vlessCall (credential : String) : SubCall where
  user := { id := 1, proxies := Dict.empty.set .vless [credential] }
  format := .v2ray

theorem revoked_credential_returned : ∃ s, Run (shareStep listing) (fun _ _ => True) {} s ∧
    ∃ e ∈ s.returned, e.1 = vlessCall "new" ∧ "old" ∈ listing.shown e.2 ∧
      "old" ∉ e.1.user.secrets := by
  refine ⟨_, .next (a := .start 2 (vlessCall "new") 1000000) (.next (a := .finish 1 ())
    (.next (a := .start 1 (vlessCall "old") 0) .init trivial rfl) trivial rfl) trivial rfl,
    (vlessCall "new", ["old"]), List.mem_cons_of_mem _ List.mem_cons_self, rfl,
    List.mem_cons_self, ?_⟩
  intro h
  obtain ⟨e, he, hx⟩ := h
  obtain rfl := List.mem_singleton.mp he
  exact absurd hx (by decide)

theorem unchanged_user_served : ∃ s : SubState (List String), s.returned.length = 2 ∧
    ∀ e ∈ s.returned, listing.shown e.2 ⊆ e.1.user.secrets :=
  ⟨_, rfl, no_revoked_secret listing _ (.next (a := .start 2 (vlessCall "old") 1000000)
    (.next (a := .finish 1 ()) (.next (a := .start 1 (vlessCall "old") 0) .init
      (fun _ hf => absurd hf List.not_mem_nil) rfl) trivial rfl)
    (fun f hf _ _ => by obtain rfl := List.mem_singleton.mp hf; exact subset_rfl) rfl)⟩

end Shahkar.Subscription
