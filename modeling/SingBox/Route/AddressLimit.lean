import SingBox.Route.Load
import SingBox.Route.PreMatch

/-! `WithAddressLimit`, the static scan that decides whether a rule is checked
against the response at all, next to the deferral it has to foresee. -/

namespace SingBox.Route
open Dns Lib Option Bool HeadlessRule Rule DefaultDNSRule

/-- A legacy rule over sets in a state they can be in. -/
structure DefaultDNSRule.LegacyLoaded (r : DefaultDNSRule) : Prop where
  noMatchResponse : r.matchResponse = false
  plain : ∀ item ∈ r.plainItems, item.readsResponse = false
  loaded : ∀ item ∈ r.ruleSetItem, ∀ s ∈ item.setList,
    ∃ tag events, s = RuleSet.run tag events

lemma RuleItem.readsResponse_of_readsDestination {item : RuleItem}
    (h : item.readsDestination = false) : item.readsResponse = false := by
  cases item <;> simp_all [RuleItem.readsDestination, RuleItem.readsResponse]

variable {r : DefaultDNSRule}

lemma DefaultDNSRule.LegacyLoaded.legacy (h : r.LegacyLoaded) :
    r.Legacy := { h with
  leaves item hitem s hs rule hr leaf hl := by
    obtain ⟨tag, events, rfl⟩ := h.loaded item hitem s hs
    have honly := (RuleSet.run_loaded tag events).onlyIPCIDR rule hr leaf hl
    exact ⟨fun item hi => RuleItem.readsResponse_of_readsDestination (honly.plain item hi),
      honly.ipCIDR⟩ }

/-- Without an address limit a rule compares no destination, unless a logical rule drops the source
setting of a reference, which is exempt from the scan: the metadata of a set cover all its rules. -/
theorem DefaultDNSRule.LegacyLoaded.comparesDestination (h : r.LegacyLoaded)
    (hlimit : r.withAddressLimit = false) : r.bySource.comparesDestination = false := by
  rw [DefaultDNSRule.withAddressLimit, or_eq_false_iff] at hlimit
  obtain ⟨hown, hsets⟩ := hlimit
  refine bySource_comparesDestination (by simpa using hown) fun item hitem hms s hs => ?_
  simp only [mem_def.mp hitem, any_some, RuleSetItem.containsDestinationIPCIDRRule, hms,
    false_eq_true, if_false, List.any_eq_false, not_eq_true] at hsets
  obtain ⟨tag, events, rfl⟩ := h.loaded item hitem s hs
  have hloaded := (RuleSet.run_loaded tag events).metadata (hsets _ hs)
  rw [RuleSet.comparesDestination, anyComparesDestination_eq_false]
  intro rule hr
  exact comparesDestination_eq_false (hloaded rule hr) false

variable (options : List HeadlessOptions)

end SingBox.Route
