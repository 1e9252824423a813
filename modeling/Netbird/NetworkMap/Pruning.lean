/-
Views with some peers and groups cut away.

A pruned view knows a part of the peers and a part of the groups, and of a group it
knows the members that are left; a group without any is gone.  A loop that runs over
the members of groups sees of the pruned view what it would see of the full one, less
the peers that were cut, as long as a group named "All" is not smaller than the groups
it is listed with: the loops stop at such a group and ignore the others.

* `Prunes.uniquePeerIDs_eq` — pruning and then listing is listing and then filtering.
-/
import Netbird.NetworkMap.Routing

namespace Netbird

open List Option

/-- The group restricted to some peers; a group without any is dropped. -/
def Group.prune (keep : String → Bool) (group : Group) : Option Group :=
  let filteredPeers := group.peers.filter keep
  if filteredPeers.length = 0 then none else some { group with peers := filteredPeers }

theorem Group.prune_eq_some {keep : String → Bool} {g g' : Group} :
    g.prune keep = some g' ↔ g.peers.filter keep ≠ [] ∧ g' = { g with peers := g.peers.filter keep } := by
  rw [Group.prune]
  by_cases h : g.peers.filter keep = []
  · simp [h]
  · simp [h, eq_comm]

/-! ### Listing the members of groups -/

namespace View

variable {v : View} {groups : List String} {p : String}

variable {g : String}

theorem mem_members : p ∈ v.members g ↔ ∃ group, v.group g = some group ∧ p ∈ group.peers := by
  rw [members]
  cases v.group g <;> simp

theorem firstAll_eq_some {all : Group} (h : v.firstAll groups = some all) :
    ∃ g ∈ groups, v.group g = some all ∧ all.isGroupAll = true := by
  obtain ⟨g, hg, hgroup⟩ := mem_filterMap.mp (mem_of_find?_eq_some h)
  exact ⟨g, hg, hgroup, find?_some h⟩

theorem firstAll_cons_of_none (h : v.group g = none) :
    v.firstAll (g :: groups) = v.firstAll groups := by
  rw [firstAll, filterMap_cons_none h, firstAll]

theorem firstAll_cons_of_all {group : Group} (h : v.group g = some group)
    (hall : group.isGroupAll = true) : v.firstAll (g :: groups) = some group := by
  rw [firstAll, filterMap_cons_some h, find?_cons_of_pos hall]

theorem firstAll_cons_of_not_all {group : Group} (h : v.group g = some group)
    (hall : ¬ group.isGroupAll = true) : v.firstAll (g :: groups) = v.firstAll groups := by
  rw [firstAll, filterMap_cons_some h, find?_cons_of_neg hall, firstAll]

theorem uniquePeerIDs_subset (h : p ∈ v.uniquePeerIDs groups) : p ∈ groups.flatMap v.members := by
  rw [uniquePeerIDs] at h
  rcases hall : v.firstAll groups with _ | all
  · rw [hall] at h
    split_ifs at h
    · exact h
    · exact mem_dedup.mp h
  · rw [hall] at h
    obtain ⟨g, hg, hgroup, -⟩ := firstAll_eq_some hall
    exact mem_flatMap.mpr ⟨g, hg, mem_members.mpr ⟨all, hgroup, h⟩⟩

/-! ### Pruned views -/

/-- `v'` knows the peers that are kept and, of the groups that are kept, the members that are. -/
structure Prunes (v v' : View) (keep : String → Bool) (kept : List String) : Prop where
  peer : ∀ p, v'.peer p = if keep p then v.peer p else none
  group : ∀ g, v'.group g = if g ∈ kept then (v.group g).bind (Group.prune keep) else none
  valid : ∀ p, v'.valid p = keep p

variable {v' : View} {keep : String → Bool} {kept : List String} (h : v.Prunes v' keep kept)

include h

theorem Prunes.members_eq (hg : g ∈ kept) : v'.members g = (v.members g).filter keep := by
  rw [members, members, h.group, if_pos hg]
  rcases hgroup : v.group g with _ | group
  · rfl
  · rcases hprune : group.prune keep with _ | group'
    · have hempty : group.peers.filter keep = [] := by
        by_contra hne
        rw [Group.prune_eq_some.mpr ⟨hne, rfl⟩] at hprune
        cases hprune
      simp [hprune, hempty]
    · simp [hprune, (Group.prune_eq_some.mp hprune).2]

theorem Prunes.members_of_not_mem (hg : g ∉ kept) : v'.members g = [] := by
  rw [members, h.group, if_neg hg]

theorem Prunes.mem_members : p ∈ v'.members g ↔ g ∈ kept ∧ p ∈ v.members g ∧ keep p = true := by
  by_cases hg : g ∈ kept
  · rw [h.members_eq hg]
    simp [hg]
  · rw [h.members_of_not_mem hg]
    simp [hg]

/-- A group of the pruned view is what is left of a group of the full one. -/
theorem Prunes.group_eq_some {group' : Group} (hgroup : v'.group g = some group') :
    g ∈ kept ∧ ∃ group, v.group g = some group ∧ group' = { group with peers := group.peers.filter keep } := by
  rw [h.group] at hgroup
  split_ifs at hgroup with hg
  obtain ⟨group, hgroup, hprune⟩ := bind_eq_some_iff.mp hgroup
  exact ⟨hg, group, hgroup, (Group.prune_eq_some.mp hprune).2⟩

/-- What is left of the first group named "All" is the first such group of the pruned view. -/
theorem Prunes.firstAll_eq {all : Group} (hkept : ∀ g ∈ groups, v.group g = some all → g ∈ kept)
    (hall : v.firstAll groups = some all) (hne : all.peers.filter keep ≠ []) :
    v'.firstAll groups = some { all with peers := all.peers.filter keep } := by
  induction groups with
  | nil => simp [firstAll] at hall
  | cons g groups ih =>
    have ih := ih fun g' hg' => hkept g' (mem_cons_of_mem g hg')
    have hgroup' := h.group g
    rcases hgroup : v.group g with _ | group
    · rw [hgroup, bind_none, ite_self] at hgroup'
      rw [firstAll_cons_of_none hgroup] at hall
      rw [firstAll_cons_of_none hgroup', ih hall]
    · by_cases hisAll : group.isGroupAll = true
      · -- the group is the one that was found, and something of it is left
        rw [firstAll_cons_of_all hgroup hisAll] at hall
        obtain rfl := some.inj hall
        rw [if_pos (hkept g mem_cons_self hgroup), hgroup, bind_some,
          Group.prune_eq_some.mpr ⟨hne, rfl⟩] at hgroup'
        exact firstAll_cons_of_all hgroup' hisAll
      · rw [firstAll_cons_of_not_all hgroup hisAll] at hall
        rcases hleft : v'.group g with _ | left
        · rw [firstAll_cons_of_none hleft, ih hall]
        · obtain ⟨-, group₂, hgroup₂, rfl⟩ := h.group_eq_some hleft
          obtain rfl := some.inj (hgroup.symm.trans hgroup₂)
          rw [firstAll_cons_of_not_all hleft hisAll, ih hall]

theorem Prunes.firstAll_eq_none (hall : v.firstAll groups = none) : v'.firstAll groups = none := by
  refine find?_eq_none.mpr fun group' hmem hisAll => ?_
  obtain ⟨g, hg, hgroup'⟩ := mem_filterMap.mp hmem
  obtain ⟨-, group, hgroup, rfl⟩ := h.group_eq_some hgroup'
  exact find?_eq_none.mp hall group (mem_filterMap.mpr ⟨g, hg, hgroup⟩) hisAll

variable (hkept : ∀ g ∈ groups, (v.group g).isSome = true → g ∈ kept)

include hkept

theorem Prunes.flatMap_members :
    groups.flatMap v'.members = (groups.flatMap v.members).filter keep := by
  induction groups with
  | nil => rfl
  | cons g groups ih =>
    have hg : v'.members g = (v.members g).filter keep := by
      by_cases hmem : g ∈ kept
      · exact h.members_eq hmem
      · -- a group that is not kept does not exist
        have hnone : v.group g = none := by
          by_contra hne
          exact hmem (hkept g mem_cons_self (isSome_iff_ne_none.mpr hne))
        rw [h.members_of_not_mem hmem, members, hnone]
        rfl
    rw [flatMap_cons, flatMap_cons, filter_append, hg,
      ih fun g' hg' => hkept g' (mem_cons_of_mem g hg')]

/-- **Pruning and listing commute**: of the peers that matter, those listed for some groups that are
kept are those of the full view that are kept, unless a group named "All" loses all its members and
hides others. -/
theorem Prunes.uniquePeerIDs_eq (matters : String → Bool)
    (hcovers : ∀ all, v.firstAll groups = some all → ∀ p ∈ groups.flatMap v.members,
      keep p = true → matters p = true → ∃ q ∈ all.peers, keep q = true) :
    (v'.uniquePeerIDs groups).filter matters = ((v.uniquePeerIDs groups).filter keep).filter matters := by
  have hmembers := h.flatMap_members hkept
  rcases hall : v.firstAll groups with _ | all
  · rw [uniquePeerIDs, uniquePeerIDs, hall, h.firstAll_eq_none hall]
    split_ifs
    · rw [hmembers]
    · simp only [hmembers, Keyed.filter_dedup]
  · have hunique : v.uniquePeerIDs groups = all.peers := by rw [uniquePeerIDs, hall]
    rw [hunique]
    by_cases hne : all.peers.filter keep = []
    · -- nothing of the group is left, and so nothing that matters of the groups it hides
      rw [hne, filter_nil, filter_eq_nil_iff]
      intro p hp hmatters
      have hp := uniquePeerIDs_subset hp
      rw [hmembers, mem_filter] at hp
      obtain ⟨q, hq, hkeep⟩ := hcovers all hall p hp.1 hp.2 hmatters
      exact filter_eq_nil_iff.mp hne q hq hkeep
    · rw [uniquePeerIDs, h.firstAll_eq (fun g hg hgroup => hkept g hg (by rw [hgroup]; rfl)) hall hne]

omit hkept

/-- A peer that is kept, with all groups it is in, is listed for the same groups, unless a group
named "All" that hides it is lost. -/
theorem Prunes.mem_uniquePeerIDs_iff (hkeep : keep p = true)
    (hkept : ∀ g, p ∈ v.members g → g ∈ kept)
    (hlisted : ∀ all, v.firstAll groups = some all → p ∈ groups.flatMap v.members → p ∈ all.peers ∨
      (∀ g ∈ groups, v.group g = some all → g ∈ kept) ∧ ∃ q ∈ all.peers, keep q = true) :
    p ∈ v'.uniquePeerIDs groups ↔ p ∈ v.uniquePeerIDs groups := by
  rcases hall : v.firstAll groups with _ | all
  · have hmem : p ∈ groups.flatMap v'.members ↔ p ∈ groups.flatMap v.members := by
      simp only [mem_flatMap, h.mem_members]
      exact exists_congr fun g => and_congr_right fun _ =>
        ⟨fun hp => hp.2.1, fun hp => ⟨hkept g hp, hp, hkeep⟩⟩
    simp only [uniquePeerIDs, h.firstAll_eq_none hall, hall]
    split_ifs
    · exact hmem
    · rw [mem_dedup, mem_dedup, hmem]
  · have hunique : v.uniquePeerIDs groups = all.peers := by rw [uniquePeerIDs, hall]
    have hfirst : (∀ g ∈ groups, v.group g = some all → g ∈ kept) → (∃ q ∈ all.peers, keep q = true) →
        v'.uniquePeerIDs groups = all.peers.filter keep := by
      rintro hkeptAll ⟨q, hq, hkeepq⟩
      rw [uniquePeerIDs,
        h.firstAll_eq hkeptAll hall (ne_nil_of_mem (mem_filter.mpr ⟨hq, hkeepq⟩))]
    rw [hunique]
    constructor
    · intro hp
      have hmem : p ∈ groups.flatMap v.members := by
        obtain ⟨g, hg, hpg⟩ := mem_flatMap.mp (uniquePeerIDs_subset hp)
        exact mem_flatMap.mpr ⟨g, hg, (h.mem_members.mp hpg).2.1⟩
      rcases hlisted all hall hmem with hall' | ⟨hkeptAll, hkeepAll⟩
      · exact hall'
      · rw [hfirst hkeptAll hkeepAll] at hp
        exact mem_of_mem_filter hp
    · intro hp
      rw [hfirst (fun g _ hgroup => hkept g (View.mem_members.mpr ⟨all, hgroup, hp⟩)) ⟨p, hp, hkeep⟩]
      exact mem_filter.mpr ⟨hp, hkeep⟩

end View

end Netbird
