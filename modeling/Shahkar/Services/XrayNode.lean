import Mathlib.Data.Finset.Insert
import Shahkar.Lib.Text

/-!
# The inbounds a node is bound to (`app/services/xray_node.py`)

The first loop over the enabled bindings stops at the first one that is for all inbounds or has an
inbound in its config.
-/

namespace Shahkar.Services

open Shahkar.Lib.Text

structure NodeService where
  engine : String
  slug : String
  mode : Option String := none
  inboundTag : Option String := none

structure ServiceBinding where
  enabled : Bool
  service : Option NodeService

def NodeService.allInbounds (s : NodeService) : Bool :=
  s.slug = "xray" ∨ s.mode = some "all_inbounds"

def NodeService.slugTag (s : NodeService) : Option String :=
  if startsWith "xray-inbound-" s.slug then some (dropChars 13 s.slug) else none

def xrayBindings (bindings : List ServiceBinding) : List ServiceBinding :=
  bindings.filter fun b => b.service.any fun s => s.engine = "xray"

def enabledServices (bindings : List ServiceBinding) : List NodeService :=
  ((xrayBindings bindings).filter ServiceBinding.enabled).filterMap ServiceBinding.service

def decidingService (l : List NodeService) : Option NodeService :=
  l.find? fun s => s.allInbounds || s.inboundTag.isSome

def nodeXrayInboundTags (hosts : Option (Finset String)) (bindings : List ServiceBinding) :
    Option (Finset String) :=
  if (xrayBindings bindings).isEmpty then hosts
  else match decidingService (enabledServices bindings) with
    | some s => if s.allInbounds then none else s.inboundTag.map fun tag => {tag}
    | none => some ((enabledServices bindings).filterMap NodeService.slugTag).toFinset

/-!
### What the bindings say
-/

def NodeService.names (s : NodeService) : Option String := s.inboundTag <|> s.slugTag

/-- All inbounds if some service is for all, and else those that are named. -/
def boundTags (l : List NodeService) : Option (Finset String) :=
  if l.any NodeService.allInbounds then none else some (l.filterMap NodeService.names).toFinset

variable {l : List NodeService} {tag : String}

theorem boundTags_eq_singleton_iff (h : ∃ s ∈ l, s.inboundTag = some tag) :
    some {tag} = boundTags l ↔
      ∀ s ∈ l, s.allInbounds = false ∧ ∀ named ∈ s.names, named = tag := by
  obtain ⟨s, hs, htag⟩ := h
  rw [boundTags]
  by_cases hany : l.any NodeService.allInbounds = true
  · obtain ⟨t, ht, hall⟩ := List.any_eq_true.mp hany
    simpa [hany] using ⟨t, ht, fun hnot => absurd hall (by simp [hnot])⟩
  · have hall : ∀ s ∈ l, s.allInbounds = false := by simpa using hany
    rw [if_neg hany, Option.some.injEq, eq_comm, Finset.eq_singleton_iff_unique_mem]
    have hmem : tag ∈ (l.filterMap NodeService.names).toFinset :=
      List.mem_toFinset.mpr (List.mem_filterMap.mpr ⟨s, hs, by simp [NodeService.names, htag]⟩)
    simp only [hmem, true_and, List.mem_toFinset, List.mem_filterMap]
    constructor
    · intro h s hs
      exact ⟨hall s hs, fun named hnamed => h named ⟨s, hs, hnamed⟩⟩
    · rintro h named ⟨s, hs, hnamed⟩
      exact (h s hs).2 named hnamed

/-- The node gets the inbounds its bindings name exactly if the first loop does not cut them short.
-/
theorem inbound_tags_of_bindings_iff (hosts : Option (Finset String))
    (bindings : List ServiceBinding) (hxray : xrayBindings bindings ≠ []) :
    nodeXrayInboundTags hosts bindings = boundTags (enabledServices bindings) ↔
      ∀ s ∈ decidingService (enabledServices bindings), s.allInbounds = true ∨
        ∀ t ∈ enabledServices bindings,
          t.allInbounds = false ∧ ∀ named ∈ t.names, some named = s.inboundTag := by
  rw [nodeXrayInboundTags, if_neg (by simpa using hxray)]
  generalize enabledServices bindings = l
  cases hfind : decidingService l with
  | none =>
    have hnone : ∀ s ∈ l, s.allInbounds = false ∧ s.inboundTag = none := by
      simpa [decidingService] using hfind
    have hnames : l.filterMap NodeService.slugTag = l.filterMap NodeService.names := by
      apply List.filterMap_congr
      intro s hs
      simp [NodeService.names, (hnone s hs).2]
    have hany : l.any NodeService.allInbounds = false := by
      simpa using fun s hs => (hnone s hs).1
    simp [boundTags, hany, hnames]
  | some s =>
    have hs : s ∈ l := List.mem_of_find?_eq_some hfind
    have hdecides := List.find?_some hfind
    simp only [Option.mem_some_iff, forall_eq']
    cases hall : s.allInbounds with
    | true =>
      have hany : l.any NodeService.allInbounds = true := List.any_eq_true.mpr ⟨s, hs, hall⟩
      simp [boundTags, hany]
    | false =>
      obtain ⟨tag, htag⟩ := Option.isSome_iff_exists.mp (by simpa [hall] using hdecides)
      simpa [htag] using boundTags_eq_singleton_iff ⟨s, hs, htag⟩

theorem first_inbound_only : let bindings : List ServiceBinding :=
      [⟨true, some { engine := "xray", slug := "a", inboundTag := some "in1" }⟩,
        ⟨true, some { engine := "xray", slug := "b", inboundTag := some "in2" }⟩]
    nodeXrayInboundTags none bindings = some {"in1"} ∧
      boundTags (enabledServices bindings) = some {"in1", "in2"} := by
  decide

theorem slug_inbounds_run : let bindings : List ServiceBinding :=
      [⟨true, some { engine := "xray", slug := "xray-inbound-in1" }⟩,
        ⟨true, some { engine := "xray", slug := "xray-inbound-in2" }⟩]
    nodeXrayInboundTags none bindings = boundTags (enabledServices bindings) :=
  (inbound_tags_of_bindings_iff none _ (by decide)).mpr (by decide)

end Shahkar.Services
