import Mathlib.Data.List.Nodup

/-!
The fragments of the enabled tunnels in the config of a node (`apply_endpoint_tunnels` of
`app/tunnel/inject.py`, for a `node_id`). The second run adds nothing, since every tag that it looks
for is there.
-/

namespace Shahkar.Xray.Tunnels

structure Tunnel (J : Type) where
  id : Nat
  relayNodeId : Option Nat := none
  intermediateNodeId : Option Nat := none
  exitNodeId : Option Nat := none
  targetPort : Int
  intermediatePort : Option Int := none
  singbox : Option Bool := some false
  wireguardPort : Option (Option Int) := none
  params : J

structure Fragment (J : Type) where
  tag : String
  port : Option (Option Int) := none
  body : J
  deriving DecidableEq

structure XRayConfig (J : Type) where
  inbounds : List (Fragment J)
  outbounds : List (Fragment J)
  rules : List J
  inboundsByTag : List String := []
  deriving DecidableEq

structure Db (J : Type) where
  tunnels : List (Tunnel J)
  endpointAddress : Option Nat → Option String
  nodeDelegatesWireguardToTunnel : Nat → Option Bool
  wireguardTargetPort : Tunnel J → Option Int
  hopBody : Tunnel J → String → Int → Option J
  intermediateBody : Tunnel J → Option J
  exitBody : Tunnel J → Option J
  socksBody : J
  dokodemoBody : Int → J
  relayRule : Tunnel J → List String → J
  socksRule : Tunnel J → J
  intermediateRule : Tunnel J → J

variable {J : Type}

def Tunnel.tag (t : Tunnel J) (suffix : String) : String := "tunnel-" ++ toString t.id ++ suffix

def Tunnel.transitPort (t : Tunnel J) : Int :=
  (t.intermediatePort.filter (· ≠ 0)).getD
    (if 1024 < t.targetPort then t.targetPort - 1 else t.targetPort + 1)

def Tunnel.nextHop (t : Tunnel J) : Option Nat × Int :=
  match t.intermediateNodeId.filter (0 < ·) with
  | some next => (some next, t.transitPort)
  | none => (t.exitNodeId, t.targetPort)

def tags (fragments : List (Fragment J)) : List String := fragments.map Fragment.tag

def add (fragment : Fragment J) (fragments : List (Fragment J)) : List (Fragment J) :=
  if fragment.tag ∈ tags fragments then fragments else fragments ++ [fragment]

def insertRule (rule : J) (rules : List J) : List J := rules.take 1 ++ rule :: rules.drop 1

def wireguardCapture (db : Db J) (node : Nat) (t : Tunnel J) : Option (Option (Int × Int)) :=
  match t.wireguardPort with
  | none => some none
  | some port => do
    if ← db.nodeDelegatesWireguardToTunnel node then some (← port, ← db.wireguardTargetPort t)
    else some none

def injectRelay (db : Db J) (node : Nat) (t : Tunnel J) (outbound : Fragment J)
    (c : XRayConfig J) : Option (XRayConfig J) := do
  let bridged := add ⟨t.tag "-sb-socks", some (some (18000 + t.id)), db.socksBody⟩ c.inbounds
  let rules := if t.tag "-sb-socks" ∈ tags c.inbounds then c.rules
    else insertRule (db.socksRule t) c.rules
  let relayTags := if t.exitNodeId = none then [] else c.inboundsByTag
  let capture ← wireguardCapture db node t
  let inbounds := capture.elim bridged fun (port, target) =>
    add ⟨t.tag "-wg-in", some (some port), db.dokodemoBody target⟩ bridged
  let wgTags := if capture = none ∨ t.tag "-wg-in" ∈ tags bridged then [] else [t.tag "-wg-in"]
  some { c with
    outbounds := add outbound c.outbounds
    inbounds
    rules := insertRule (db.relayRule t (relayTags ++ wgTags)) rules }

def relayStep (db : Db J) (node : Nat) (t : Tunnel J) (c : XRayConfig J) :
    Option (XRayConfig J) := do
  if ← t.singbox then some c
  else match (db.endpointAddress t.nextHop.1).filter (· ≠ "") with
    | none => some c
    | some address =>
      let body ← db.hopBody t address t.nextHop.2
      if t.tag "-out" ∈ tags c.outbounds then some c
      else injectRelay db node t { tag := t.tag "-out", body } c

def transitStep (db : Db J) (t : Tunnel J) (c : XRayConfig J) : Option (XRayConfig J) := do
  if ← t.singbox then some c
  else match (db.endpointAddress t.exitNodeId).filter (· ≠ "") with
    | none => some c
    | some address =>
      let inBody ← db.intermediateBody t
      let outBody ← db.hopBody t address t.targetPort
      some { c with
        inbounds := add ⟨t.tag "-transit-in", some (some t.transitPort), inBody⟩ c.inbounds
        outbounds := add { tag := t.tag "-transit-out", body := outBody } c.outbounds
        rules :=
          if t.tag "-transit-in" ∈ tags c.inbounds ∧ t.tag "-transit-out" ∈ tags c.outbounds then
            c.rules
          else insertRule (db.intermediateRule t) c.rules }

def exitStep (db : Db J) (t : Tunnel J) (c : XRayConfig J) : Option (XRayConfig J) := do
  if ← t.singbox then some c
  else
    let body ← db.exitBody t
    some { c with inbounds := add ⟨t.tag "-exit", some (some t.targetPort), body⟩ c.inbounds }

def inject (db : Db J) (node : Nat) (c : XRayConfig J) : Option (XRayConfig J) :=
  let relays := db.tunnels.filter fun t => t.relayNodeId = some node
  let transits := db.tunnels.filter fun t => t.intermediateNodeId = some node
  let exits := db.tunnels.filter fun t => t.exitNodeId = some node
  if relays = [] ∧ transits = [] ∧ exits = [] then some c
  -- `int(port)` of an inbound that has a tag
  else if ∃ ib ∈ c.inbounds, ib.port = some none ∧ ib.tag ≠ "" then none
  else (relays.map (relayStep db node) ++ transits.map (transitStep db) ++
    exits.map (exitStep db)).foldlM (fun c step => step c) c

def applyEndpointTunnels (db : Db J) (node : Nat) (memory : List (XRayConfig J)) (ref : Nat) :
    List (XRayConfig J) × Nat :=
  match (memory[ref]?).bind (inject db node) with
  | none => (memory, ref)
  | some result => (memory ++ [result], memory.length)

structure Extends (l l' : List (Fragment J)) : Prop where
  base : l.Sublist l'
  nodup : (tags l).Nodup → (tags l').Nodup
  ports : ∀ f ∈ l', f ∈ l ∨ f.port ≠ some none

structure Grown (c c' : XRayConfig J) : Prop where
  inbounds : Extends c.inbounds c'.inbounds
  outbounds : Extends c.outbounds c'.outbounds
  rules : c.rules.Sublist c'.rules

def Settles (step : XRayConfig J → Option (XRayConfig J)) : Prop :=
  ∀ c c', step c = some c' → Grown c c' ∧ ∀ c'', Grown c' c'' → step c'' = some c''

section Steps

variable {l l' l'' : List (Fragment J)} {c c' c'' : XRayConfig J} {db : Db J} {f : Fragment J}
  {α : Type}

theorem Extends.refl (l : List (Fragment J)) : Extends l l := ⟨.refl _, id, fun _ => .inl⟩

theorem Extends.trans (h : Extends l l') (h' : Extends l' l'') : Extends l l'' :=
  ⟨h.base.trans h'.base, h'.nodup ∘ h.nodup, fun f hf => (h'.ports f hf).elim (h.ports f) .inr⟩

theorem Extends.mem (h : Extends l l') {tag : String} (htag : tag ∈ tags l) : tag ∈ tags l' :=
  (h.base.map _).subset htag

theorem Grown.refl (c : XRayConfig J) : Grown c c := ⟨.refl _, .refl _, .refl _⟩

theorem Grown.trans (h : Grown c c') (h' : Grown c' c'') : Grown c c'' :=
  ⟨h.inbounds.trans h'.inbounds, h.outbounds.trans h'.outbounds, h.rules.trans h'.rules⟩

theorem extends_append (hport : f.port ≠ some none) (hnew : f.tag ∉ tags l) :
    Extends l (l ++ [f]) := by
  refine ⟨List.sublist_append_left _ _, fun h => ?_, fun g hg => ?_⟩
  · unfold tags at h hnew ⊢
    rw [List.map_append]
    exact h.append (List.nodup_singleton _) (List.disjoint_singleton.mpr hnew)
  · rcases List.mem_append.mp hg with hg | hg
    · exact .inl hg
    · exact .inr (List.mem_singleton.mp hg ▸ hport)

theorem extends_add (hport : f.port ≠ some none) (l : List (Fragment J)) :
    Extends l (add f l) ∧ f.tag ∈ tags (add f l) := by
  unfold add
  split
  · next hmem => exact ⟨.refl l, hmem⟩
  · next hnew => exact ⟨extends_append hport hnew, by simp [tags]⟩

theorem sublist_insertRule (rule : J) (rules : List J) : rules.Sublist (insertRule rule rules) := by
  have h := (List.Sublist.refl (rules.take 1)).append (List.sublist_cons_self rule (rules.drop 1))
  rwa [List.take_append_drop] at h

theorem settles_some : Settles (some : XRayConfig J → Option (XRayConfig J)) := by
  rintro c _ ⟨⟩
  exact ⟨.refl c, fun _ _ => rfl⟩

theorem settles_bind (x : Option α) {step : α → XRayConfig J → Option (XRayConfig J)}
    (h : ∀ a, Settles (step a)) : Settles fun c => x >>= fun a => step a c := by
  cases x with
  | none => exact fun c c' hc => by cases hc
  | some a => exact h a

theorem settles_ite (p : Prop) [Decidable p] {step step' : XRayConfig J → Option (XRayConfig J)}
    (h : Settles step) (h' : Settles step') : Settles fun c => if p then step c else step' c := by
  by_cases hp : p
  · simpa only [hp, if_true] using h
  · simpa only [hp, if_false] using h'

theorem settles_foldlM {steps : List (XRayConfig J → Option (XRayConfig J))}
    (h : ∀ step ∈ steps, Settles step) : Settles fun c => steps.foldlM (fun c step => step c) c := by
  induction steps with
  | nil => exact settles_some
  | cons step rest ih =>
    simp only [List.foldlM_cons]
    intro c c' hc
    obtain ⟨c₁, hc₁, hc'⟩ := Option.bind_eq_some_iff.mp hc
    obtain ⟨hgrown, hfixed⟩ := h step List.mem_cons_self c c₁ hc₁
    obtain ⟨hgrown', hfixed'⟩ := ih (fun s hs => h s (List.mem_cons_of_mem _ hs)) c₁ c' hc'
    exact ⟨hgrown.trans hgrown', fun c'' h'' => Option.bind_eq_some_iff.mpr
      ⟨c'', hfixed c'' (hgrown'.trans h''), hfixed' c'' h''⟩⟩

variable (db : Db J) (node : Nat) (t : Tunnel J)

theorem grown_injectRelay (hport : f.port ≠ some none) (h : injectRelay db node t f c = some c') :
    Grown c c' ∧ f.tag ∈ tags c'.outbounds := by
  obtain ⟨capture, -, hc'⟩ := Option.bind_eq_some_iff.mp h
  obtain ⟨hout, hmem⟩ := extends_add hport c.outbounds
  have hbridged := (extends_add (f := ⟨t.tag "-sb-socks", some (some (18000 + t.id)),
    db.socksBody⟩) (by simp) c.inbounds).1
  cases hc'
  refine ⟨⟨?_, hout, ?_⟩, hmem⟩
  · cases capture with
    | none => exact hbridged
    | some ports => exact hbridged.trans (extends_add (by simp) _).1
  · refine List.Sublist.trans ?_ (sublist_insertRule _ _)
    split
    · exact .refl _
    · exact sublist_insertRule _ _

theorem settles_relayStep : Settles (relayStep db node t) := by
  refine settles_bind _ fun singbox => settles_ite _ settles_some ?_
  cases (db.endpointAddress _).filter _ with
  | none => exact settles_some
  | some address =>
    refine settles_bind _ fun body c c' h => ?_
    split at h
    · next hmem =>
        cases h
        exact ⟨.refl c, fun c'' h'' => if_pos (h''.outbounds.mem hmem)⟩
    · obtain ⟨hgrown, hmem⟩ := grown_injectRelay db node t (by simp) h
      exact ⟨hgrown, fun c'' h'' => if_pos (h''.outbounds.mem hmem)⟩

theorem settles_transitStep : Settles (transitStep db t) := by
  refine settles_bind _ fun singbox => settles_ite _ settles_some ?_
  cases (db.endpointAddress _).filter _ with
  | none => exact settles_some
  | some address =>
    refine settles_bind _ fun inBody => settles_bind _ fun outBody c c' h => ?_
    obtain ⟨hin, hintag⟩ := extends_add (f := ⟨t.tag "-transit-in", some (some t.transitPort),
      inBody⟩) (by simp) c.inbounds
    obtain ⟨hout, houttag⟩ := extends_add (f := { tag := t.tag "-transit-out", body := outBody })
      (by simp) c.outbounds
    cases h
    refine ⟨⟨hin, hout, ?_⟩, fun c'' h'' => ?_⟩
    · split
      · exact .refl _
      · exact sublist_insertRule _ _
    · have hin'' := h''.inbounds.mem hintag
      have hout'' := h''.outbounds.mem houttag
      simp only [add, if_pos hin'', if_pos hout'', if_pos (And.intro hin'' hout'')]

theorem settles_exitStep : Settles (exitStep db t) := by
  refine settles_bind _ fun singbox => settles_ite _ settles_some ?_
  refine settles_bind _ fun body c c' h => ?_
  obtain ⟨hin, hintag⟩ := extends_add (f := ⟨t.tag "-exit", some (some t.targetPort), body⟩)
    (by simp) c.inbounds
  cases h
  refine ⟨⟨hin, .refl _, .refl _⟩, fun c'' h'' => ?_⟩
  simp only [add, if_pos (h''.inbounds.mem hintag)]

theorem settles_inject : Settles (inject db node) := by
  refine settles_ite _ settles_some fun c c' h => ?_
  split at h
  · cases h
  · next hports =>
      obtain ⟨hgrown, hfixed⟩ := settles_foldlM (by
        simp only [List.mem_append, List.mem_map]
        rintro step ((⟨t, -, rfl⟩ | ⟨t, -, rfl⟩) | ⟨t, -, rfl⟩)
        · exact settles_relayStep db node t
        · exact settles_transitStep db t
        · exact settles_exitStep db t) c c' h
      refine ⟨hgrown, fun c'' h'' => (if_neg ?_).trans (hfixed c'' h'')⟩
      rintro ⟨ib, hib, hport, htag⟩
      rcases (hgrown.trans h'').inbounds.ports ib hib with hbase | hnumber
      · exact hports ⟨ib, hbase, hport, htag⟩
      · exact hnumber hport

end Steps

/-- **Injection is idempotent and conservative.** -/
theorem applyEndpointTunnels_idempotent (db : Db J) (node : Nat) (memory : List (XRayConfig J))
    (ref : Nat) (config : XRayConfig J) (hconfig : memory[ref]? = some config)
    (hin : (tags config.inbounds).Nodup) (hout : (tags config.outbounds).Nodup) :
    let after := applyEndpointTunnels db node memory ref
    (∀ i, i < memory.length → after.1[i]? = memory[i]?) ∧
      ∃ result, after.1[after.2]? = some result ∧
        (tags result.inbounds).Nodup ∧ (tags result.outbounds).Nodup ∧
        config.inbounds.Sublist result.inbounds ∧ config.outbounds.Sublist result.outbounds ∧
        config.rules.Sublist result.rules ∧
        let again := applyEndpointTunnels db node after.1 after.2
        again.1[again.2]? = some result := by
  unfold applyEndpointTunnels
  rw [hconfig, Option.bind_some]
  cases hinject : inject db node config with
  | none =>
    refine ⟨fun _ _ => rfl, config, hconfig, hin, hout, .refl _, .refl _, .refl _, ?_⟩
    simp only [hconfig, Option.bind_some, hinject]
  | some result =>
    obtain ⟨⟨hinbounds, houtbounds, hrules⟩, hfixed⟩ := settles_inject db node config result hinject
    have hresult : (memory ++ [result])[memory.length]? = some result := List.getElem?_concat_length
    refine ⟨fun i hi => List.getElem?_append_left hi, result, hresult, hinbounds.nodup hin,
      houtbounds.nodup hout, hinbounds.base, houtbounds.base, hrules, ?_⟩
    simp only [hresult, Option.bind_some, hfixed result (.refl result)]
    exact List.getElem?_concat_length

def relayDb : Db Unit where
  tunnels := [{ id := 7, relayNodeId := some 1, exitNodeId := some 2, targetPort := 443, params := () }]
  endpointAddress _ := some "203.0.113.7"
  nodeDelegatesWireguardToTunnel _ := some false
  wireguardTargetPort _ := none
  hopBody _ _ _ := some ()
  intermediateBody _ := none
  exitBody _ := some ()
  socksBody := ()
  dokodemoBody _ := ()
  relayRule _ _ := ()
  socksRule _ := ()
  intermediateRule _ := ()

theorem relay_keeps_base :
    let config : XRayConfig Unit := ⟨[{ tag := "vless", body := () }], [], [], ["vless"]⟩
    let after := applyEndpointTunnels relayDb 1 [config] 0
    after.1[0]? = some config ∧ after.2 = 1 :=
  ⟨(applyEndpointTunnels_idempotent relayDb 1 _ 0 _ rfl (by decide) (by decide)).1 0 Nat.one_pos,
    by decide⟩

end Shahkar.Xray.Tunnels
