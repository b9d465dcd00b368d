import SingBox.Group.Member

/-! The choice of a URL-test group: the fastest member, unless the one in use is within a
tolerance of it. Delays and the tolerance have sixteen bits. -/

namespace SingBox.Group
open List

/-- The fields of `URLTestGroup` that the choice reads. The history is kept under the tag that an
outbound routes through. -/
structure URLTestGroup where
  outbounds : List Outbound
  tolerance : UInt16
  history : Tag → Option UInt16
  realTag : Outbound → Tag
  selectedOutboundTCP : Option Outbound := none
  selectedOutboundUDP : Option Outbound := none

structure Least where
  minDelay : UInt16 := 0
  minOutbound : Option Outbound := none

namespace URLTestGroup

variable (g : URLTestGroup) (network : Network)

def delay (detour : Outbound) : Option UInt16 := g.history (g.realTag detour)

def selected : Network → Option Outbound
  | .tcp => g.selectedOutboundTCP
  | .udp => g.selectedOutboundUDP

def start : Least :=
  match g.selected network with
  | none => {}
  | some detour =>
    match g.delay detour with
    | none => {}
    | some delay => ⟨delay, some detour⟩

def round (least : Least) (detour : Outbound) : Least :=
  if network ∉ detour.network then least
  else
    match g.delay detour with
    | none => least
    | some delay =>
      if least.minDelay = 0 ∨ least.minDelay > delay + g.tolerance then ⟨delay, some detour⟩
      else least

def select : Option Outbound × Bool :=
  match (g.outbounds.foldl (g.round network) (g.start network)).minOutbound with
  | some detour => (some detour, true)
  | none => (g.outbounds.find? (network ∈ ·.network), false)

variable (selected : Option Outbound)

/-- What `performUpdateCheck` selects for a network, and whether `updated` is set. -/
def update : Option Outbound × Bool → Option Outbound × Bool
  | (none, _) => (selected, false)
  | (some outbound, found) =>
    if selected = none ∨ found = true ∧ some outbound ≠ selected then (some outbound, selected.isSome)
    else (selected, false)

/-- The group after the check, and whether the connections are interrupted. -/
def performUpdateCheck : URLTestGroup × Bool :=
  let tcp := update g.selectedOutboundTCP (g.select .tcp)
  let g := { g with selectedOutboundTCP := tcp.1 }
  let udp := update g.selectedOutboundUDP (g.select .udp)
  ({ g with selectedOutboundUDP := udp.1 }, tcp.2 || udp.2)

/-! ## What the choice should be -/

/-- A member that supports the network, with its measured delay. -/
def Measured (o : Outbound) (d : UInt16) : Prop :=
  o ∈ g.outbounds ∧ network ∈ o.network ∧ g.delay o = some d

def Within (d : UInt16) : Prop :=
  ∀ o d', g.Measured network o d' → d.toNat ≤ d'.toNat + g.tolerance.toNat

structure Honours (g : URLTestGroup) (network : Network) : Prop where
  fast : (∃ o d, g.Measured network o d) →
    ∃ o d, g.select network = (some o, true) ∧ g.delay o = some d ∧ g.Within network d
  kept : ∀ o d, g.selected network = some o → g.delay o = some d → g.Within network d →
    g.select network = (some o, true)
  interrupts : g.performUpdateCheck.2 = true ↔ ∃ n o o', g.selected n = some o ∧
    g.performUpdateCheck.1.selected n = some o' ∧ o ≠ o'

/-- The variables of the loop after the first members. -/
def held (before : List Outbound) : Least := before.foldl (g.round network) (g.start network)

/-- The loop holds a member that it may end with: the one in use if no member beats that by more
than the tolerance, and else any of which this is so. -/
structure Fits (g : URLTestGroup) (network : Network) (least : Least) : Prop where
  found : least.minOutbound ≠ none
  within : g.Within network least.minDelay
  kept : ∀ o d, g.selected network = some o → g.delay o = some d → g.Within network d →
    least.minOutbound = some o

/-- The member replaces one whose delay is zero, which the loop reads as none, or one that is
slower than its own delay and the tolerance only because their sum passes sixteen bits. -/
def Misreads (least : Least) (o : Outbound) : Prop :=
  ∃ d, g.Measured network o d ∧ (least.minDelay = 0 ∨
    2 ^ 16 ≤ d.toNat + g.tolerance.toNat ∧
      d.toNat + g.tolerance.toNat < least.minDelay.toNat + 2 ^ 16)

/-- After each such reading that costs it a fitting member, the loop comes to hold one again. -/
def Recovers : Prop :=
  ∀ before o after, g.outbounds = before ++ o :: after → g.Fits network (g.held network before) →
    g.Misreads network (g.held network before) o →
    ∃ passed rest, after = passed ++ rest ∧ g.Fits network (g.held network (before ++ o :: passed))

section Loop

variable {g : URLTestGroup} {network : Network} {o : Outbound} {d : UInt16} {least : Least}
  {before after : List Outbound}

/-- The variables are those of an outbound, or there is none yet. -/
structure Sound (g : URLTestGroup) (least : Least) : Prop where
  delay : ∀ o, least.minOutbound = some o → g.delay o = some least.minDelay
  empty : least.minOutbound = none → least.minDelay = 0

lemma sound_start (g : URLTestGroup) (network : Network) : Sound g (g.start network) := by
  unfold start
  split
  · exact ⟨nofun, fun _ => rfl⟩
  · split
    · exact ⟨nofun, fun _ => rfl⟩
    · next hd =>
      refine ⟨?_, nofun⟩
      rintro _ ⟨⟩
      exact hd

lemma round_of_measured (h : g.Measured network o d) : g.round network least o =
    if least.minDelay = 0 ∨ least.minDelay > d + g.tolerance then ⟨d, some o⟩ else least := by
  unfold round
  rw [if_neg (not_not.mpr h.2.1), h.2.2]

/-- A round takes the member, if it was measured, or changes nothing. -/
theorem round_cases (g : URLTestGroup) (network : Network) (least : Least) (ho : o ∈ g.outbounds) :
    g.round network least o = least ∨
      ∃ d, g.Measured network o d ∧ g.round network least o = ⟨d, some o⟩ := by
  unfold round
  split
  · exact .inl rfl
  · next hnet =>
    split
    · exact .inl rfl
    · next d hd =>
      split
      · exact .inr ⟨d, ⟨ho, not_not.mp hnet, hd⟩, rfl⟩
      · exact .inl rfl

lemma sound_held (hl : before ⊆ g.outbounds) : Sound g (g.held network before) := by
  refine foldlRecOn before _ (sound_start g network) fun least h o ho => ?_
  obtain heq | ⟨d, hd, heq⟩ := round_cases g network least (hl ho)
  · rwa [heq]
  · rw [heq]
    refine ⟨?_, nofun⟩
    rintro _ ⟨⟩
    exact hd.2.2

lemma held_append_cons : g.held network (before ++ o :: after) =
    (o :: after).foldl (g.round network) (g.held network before) := foldl_append ..

/-- A member that fits is only given up for a misreading. -/
theorem Fits.round (h : g.Fits network least) (ho : o ∈ g.outbounds) :
    g.Fits network (g.round network least o) ∨ g.Misreads network least o := by
  obtain heq | ⟨d, hd, -⟩ := round_cases g network least ho
  · rw [heq]
    exact .inl h
  · rw [round_of_measured hd]
    split
    · next htaken =>
      refine .inr ⟨d, hd, htaken.imp_right fun hgt => ?_⟩
      have hle := h.within o d hd
      have ht := g.tolerance.toNat_lt
      have hlt := d.toNat_lt
      rw [gt_iff_lt, UInt16.lt_iff_toNat_lt, UInt16.toNat_add] at hgt
      omega
    · exact .inl h

/-- From a member that fits on, a loop that recovers ends with one. -/
theorem Recovers.fits (h : g.Recovers network) (hlist : g.outbounds = before ++ after)
    (hfits : g.Fits network (g.held network before)) :
    g.Fits network (g.held network g.outbounds) := by
  -- A misreading may pass over several members at once, so the induction is on the rest's length.
  induction hn : after.length using Nat.strongRecOn generalizing before after with
  | ind n ih =>
    cases after with
    | nil => rwa [hlist, append_nil]
    | cons o after =>
      have ho : o ∈ g.outbounds := by simp [hlist]
      obtain hnext | hmisread := hfits.round ho
      · have hlist' : g.outbounds = (before ++ [o]) ++ after := by simp [hlist]
        refine ih after.length (hn ▸ Nat.lt_succ_self _) hlist' ?_ rfl
        rwa [held_append_cons]
      · obtain ⟨passed, rest, rfl, hagain⟩ := h before o after hlist hfits hmisread
        have hshort : rest.length < n := by
          rw [← hn, length_cons, length_append]
          omega
        exact ih rest.length hshort (by simp [hlist]) hagain rfl

lemma select_eq_iff : g.select network = (some o, true) ↔
    (g.outbounds.foldl (g.round network) (g.start network)).minOutbound = some o := by
  unfold select
  split
  · next h => simp [h]
  · next h => simp [h]

lemma update_replaces (found : Option Outbound × Bool) :
    (update selected found).2 ↔
      ∃ o o', selected = some o ∧ (update selected found).1 = some o' ∧ o ≠ o' := by
  obtain ⟨_ | outbound, found⟩ := found
  · simp +contextual [update]
  · cases selected with
    | none => simp [update]
    | some o =>
      cases found with
      | false => simp [update]
      | true =>
        by_cases hne : outbound = o
        · simp [update, hne]
        · simp [update, hne, Ne.symm hne]

lemma interrupts (g : URLTestGroup) : g.performUpdateCheck.2 ↔ ∃ n o o',
    g.selected n = some o ∧ g.performUpdateCheck.1.selected n = some o' ∧ o ≠ o' := by
  have hboth : g.performUpdateCheck.2 ↔ _ ∨ _ :=
    (Bool.or_eq_true ..).to_iff.trans (or_congr (update_replaces ..) (update_replaces ..))
  rw [hboth]
  constructor
  · rintro (⟨o, o', h⟩ | ⟨o, o', h⟩)
    · exact ⟨.tcp, o, o', h⟩
    · exact ⟨.udp, o, o', h⟩
  · rintro ⟨_ | _, o, o', h⟩
    · exact .inl ⟨o, o', h⟩
    · exact .inr ⟨o, o', h⟩

lemma Honours.fits (h : g.Honours network) (hex : ∃ o d, g.Measured network o d) :
    g.Fits network (g.held network g.outbounds) := by
  obtain ⟨o, d, hsel, hd, hwithin⟩ := h.fast hex
  have ho : (g.held network g.outbounds).minOutbound = some o := select_eq_iff.mp hsel
  have hdelay := (sound_held (Subset.refl _)).delay o ho
  refine ⟨by simp [ho], ?_, fun o d hsel hd hw => select_eq_iff.mp (h.kept o d hsel hd hw)⟩
  exact Option.some.inj (hd.symm.trans hdelay) ▸ hwithin

end Loop

end URLTestGroup

end SingBox.Group
