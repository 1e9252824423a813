/-
Whose choice of routes counts: runs of user operations and management updates.

Management's choices are stored as if the user had made them.  When the user has deselected
everything, an update with an exit node to apply goes through the append mode of `SelectRoutes`,
which then starts over and selects all other networks.  And an exit node keeps the choice of the
first update that named it, whatever later updates say.

* `choicesSurvive_iff` — when the user's choices survive;
* `followsManagement_iff` — the filter follows the latest update exactly if it agrees with
  the first one.
-/
import Netbird.Client.RouteSelector
import Netbird.Lib.Runs

namespace Netbird.Client

open Runs RouteSelector Option

/-! ### Runs with a user -/

inductive UserOp where
  | selectRoutes (routes : List String) (append : Bool) (allRoutes : List String)
  | deselectRoutes (routes allRoutes : List String)
  | selectAllRoutes
  | deselectAllRoutes
  | save
  | load

inductive Event where
  | user (op : UserOp)
  | update (clientRoutes : HAMap)

/-- What the user asked for, from the user's operations alone: the networks chosen one way
or the other since the selection was last replaced, and whether nothing is to be selected. -/
structure Wishes where
  chosen : Finset String
  nothing : Bool

namespace Wishes

/-- Without `append`, and after everything was deselected, a selection is about all networks
there are: those that are not selected are deselected. -/
def select (w : Wishes) (routes : List String) (append : Bool) (allRoutes : List String) : Wishes where
  chosen :=
    if !append || w.nothing then allRoutes.toFinset
    else w.chosen ∪ (routes.filter (· ∈ allRoutes)).toFinset
  nothing := false

def deselect (w : Wishes) (routes allRoutes : List String) : Wishes where
  chosen := w.chosen ∪ (routes.filter (· ∈ allRoutes)).toFinset
  nothing := w.nothing

end Wishes

/-- The selector and the state file, each with the wishes it should stand for. -/
structure State where
  selector : RouteSelector
  file : Option Saved
  wishes : Wishes
  savedWishes : Wishes

namespace State

def init : State := ⟨RouteSelector.new, none, ⟨∅, false⟩, ⟨∅, false⟩⟩

variable (st : State)

def step : Event → State
  | .user (.selectRoutes routes append allRoutes) =>
    { st with
      selector := (st.selector.selectRoutes routes append allRoutes).1
      wishes := st.wishes.select routes append allRoutes }
  | .user (.deselectRoutes routes allRoutes) =>
    { st with
      selector := (st.selector.deselectRoutes routes allRoutes).1
      wishes := st.wishes.deselect routes allRoutes }
  | .user .selectAllRoutes =>
    { st with selector := RouteSelector.selectAllRoutes, wishes := ⟨∅, false⟩ }
  | .user .deselectAllRoutes =>
    { st with selector := RouteSelector.deselectAllRoutes, wishes := ⟨∅, true⟩ }
  | .user .save =>
    { st with file := some st.selector.marshalJSON, savedWishes := st.wishes }
  | .user .load =>
    { st with selector := unmarshalJSON st.file, wishes := st.savedWishes }
  | .update clientRoutes =>
    { st with selector := st.selector.updateRouteSelectorFromManagement clientRoutes }

/-- The update changes nothing but exit nodes the user made no choice for, and selects
nothing if the user wants nothing. -/
def Kept : Event → Prop
  | .user _ => True
  | .update m =>
    (∀ n, hasExitNode m n = false ∨ n ∈ st.wishes.chosen →
      (st.selector.updateRouteSelectorFromManagement m).isSelected n = st.selector.isSelected n) ∧
    (st.wishes.nothing = true →
      ∀ n, (st.selector.updateRouteSelectorFromManagement m).isSelected n = false)

/-- The update has no exit node to apply if the user wants nothing. -/
def Unforced : Event → Prop
  | .user _ => True
  | .update m => st.wishes.nothing = true → ∀ n, autoApplied m n = false

end State

/-- A selector that stands for the wishes. -/
structure Wishes.MetBy (w : Wishes) (rs : RouteSelector) : Prop where
  deselectAll : rs.deselectAll = w.nothing
  empty : rs.deselectAll = true → ∀ n, rs.hasUserSelectionForRoute n = false
  chosen : rs.deselectAll = false → ∀ n ∈ w.chosen, rs.hasUserSelectionForRoute n = true

variable {w : Wishes} {rs : RouteSelector} {m : HAMap} {st : State}

theorem hasUserSelectionForRoute_iff {n : String} :
    rs.hasUserSelectionForRoute n = true ↔ n ∈ rs.selectedRoutes ∨ n ∈ rs.deselectedRoutes := by
  simp [hasUserSelectionForRoute]

namespace Wishes.MetBy

theorem new : MetBy ⟨∅, false⟩ RouteSelector.new := ⟨rfl, by simp [RouteSelector.new], by simp⟩

theorem select (h : w.MetBy rs) (routes : List String) (append : Bool) (allRoutes : List String) :
    (w.select routes append allRoutes).MetBy (rs.selectRoutes routes append allRoutes).1 := by
  refine ⟨rfl, fun hall => absurd hall (by simp [selectRoutes_deselectAll]), fun _ n hn => ?_⟩
  rw [hasUserSelectionForRoute_iff, mem_selected_select, mem_deselected_select, replaces, h.deselectAll]
  by_cases hr : (!append || w.nothing) = true
  · simp only [Wishes.select, hr, if_true, List.mem_toFinset] at hn ⊢
    tauto
  · simp only [Wishes.select, hr] at hn ⊢
    have hnothing : rs.deselectAll = false := by
      rw [h.deselectAll]
      simpa using (Bool.or_eq_false_iff.mp (Bool.eq_false_of_not_eq_true hr)).2
    rcases Finset.mem_union.mp hn with hn | hn
    · have := hasUserSelectionForRoute_iff.mp (h.chosen hnothing n hn)
      tauto
    · have : n ∈ routes ∧ n ∈ allRoutes := by simpa using hn
      tauto

theorem deselect (h : w.MetBy rs) (routes allRoutes : List String) :
    (w.deselect routes allRoutes).MetBy (rs.deselectRoutes routes allRoutes).1 := by
  cases hnot : rs.deselectAll with
  | true =>
    rw [deselectRoutes, if_pos hnot]
    exact ⟨h.deselectAll, h.empty, fun hall => Bool.noConfusion (hnot.symm.trans hall)⟩
  | false =>
    refine ⟨deselectRoutes_deselectAll.trans h.deselectAll, ?_, fun _ n hn => ?_⟩
    · rw [deselectRoutes_deselectAll]
      exact fun hall => Bool.noConfusion (hnot.symm.trans hall)
    · rw [hasUserSelectionForRoute_iff, mem_selected_deselect hnot, mem_deselected_deselect hnot]
      rcases Finset.mem_union.mp hn with hn | hn
      · have := hasUserSelectionForRoute_iff.mp (h.chosen hnot n hn)
        tauto
      · have : n ∈ routes ∧ n ∈ allRoutes := by simpa using hn
        tauto

theorem update (h : w.MetBy rs) (hauto : w.nothing = true → ∀ n, autoApplied m n = false) :
    w.MetBy (rs.updateRouteSelectorFromManagement m) := by
  cases hnot : rs.deselectAll with
  | true => rwa [update_eq_self hnot fun n _ => hauto (h.deselectAll ▸ hnot) n]
  | false =>
    have hupdate := (update_of_not_deselectAll (n := "") m hnot).1
    refine ⟨hupdate.trans (hnot.symm.trans h.deselectAll), fun h => ?_, fun _ n hn => ?_⟩
    · rw [hupdate] at h
      cases h
    · have := hasUserSelectionForRoute_iff.mp (h.chosen hnot n hn)
      rw [hasUserSelectionForRoute_iff, (update_of_not_deselectAll m hnot).2.1,
        (update_of_not_deselectAll m hnot).2.2]
      tauto

end Wishes.MetBy

/-- With the wishes met, an update keeps them exactly if it does not force an exit node. -/
theorem kept_iff (h : st.wishes.MetBy st.selector) (e : Event) : st.Kept e ↔ st.Unforced e := by
  cases e with
  | user op => exact Iff.rfl
  | update m =>
    constructor
    · rintro ⟨-, hnothing⟩ hwant n
      by_contra hauto
      have hall : st.selector.deselectAll = true := h.deselectAll.trans hwant
      -- any network that is no exit node of the map shows that the flag was dropped
      obtain ⟨other, hother⟩ := exists_not_exitNode m
      have hselected := isSelected_update_of_deselectAll hall (h.empty hall n)
        (Bool.eq_true_of_not_eq_false hauto) hother
      rw [hnothing hwant other] at hselected
      cases hselected
    · intro hunforced
      cases hall : st.selector.deselectAll with
      | true =>
        have hself : st.selector.updateRouteSelectorFromManagement m = st.selector :=
          update_eq_self hall fun n _ => hunforced (h.deselectAll ▸ hall) n
        refine ⟨fun n _ => by rw [hself], fun _ n => ?_⟩
        rw [hself]
        exact isSelected_of_deselectAll hall
      | false =>
        refine ⟨fun n hn => ?_, fun hwant => nomatch hall.symm.trans (h.deselectAll.trans hwant)⟩
        obtain ⟨hflag, hdes, -⟩ := update_of_not_deselectAll (n := n) m hall
        rw [isSelected_of_not_deselectAll hflag, isSelected_of_not_deselectAll hall,
          decide_eq_decide, hdes]
        rcases hn with hn | hn
        · simp [hn]
        · have := hasUserSelectionForRoute_iff.mp (h.chosen hall n hn)
          tauto

/-- The selector and the saved one stand for the wishes they were made with. -/
structure State.Consistent (st : State) : Prop where
  current : st.wishes.MetBy st.selector
  saved : st.savedWishes.MetBy (unmarshalJSON st.file)

theorem State.Consistent.step (h : st.Consistent) (e : Event) (he : st.Unforced e) :
    (st.step e).Consistent := by
  obtain ⟨hcurrent, hsaved⟩ := h
  cases e with
  | update m => exact ⟨hcurrent.update he, hsaved⟩
  | user op =>
    cases op with
    | selectRoutes routes append allRoutes => exact ⟨hcurrent.select routes append allRoutes, hsaved⟩
    | deselectRoutes routes allRoutes => exact ⟨hcurrent.deselect routes allRoutes, hsaved⟩
    | selectAllRoutes => exact ⟨.new, hsaved⟩
    | deselectAllRoutes => exact ⟨⟨rfl, fun _ _ => rfl, by simp [State.step]⟩, hsaved⟩
    | save => exact ⟨hcurrent, hcurrent⟩
    | load => exact ⟨hsaved, hsaved⟩

/-- Every update of the run keeps the user's choices. -/
def ChoicesSurvive (events : List Event) : Prop :=
  Along State.step State.Kept State.init events

/-- **The user's choices survive** the updates of a run exactly if none of those that come
while the user wants nothing selected has an exit node to apply. -/
theorem choicesSurvive_iff (events : List Event) :
    ChoicesSurvive events ↔ Along State.step State.Unforced State.init events :=
  Along.congr State.Consistent (fun _ e h => kept_iff h.current e) (fun _ e h he => h.step e he) ⟨.new, .new⟩

def exitMap (skipAutoApply : Bool) : HAMap :=
  AList.singleton "exit|0.0.0.0/0"
    [{ id := "r", network := ⟨[0, 0, 0, 0], 0⟩, skipAutoApply := skipAutoApply }]

/-- After the user deselected everything, one update selects the network `lan`. -/
theorem lan_selected_by_update :
    ¬ ChoicesSurvive [.user .deselectAllRoutes, .update (exitMap false)] := by
  rintro ⟨-, ⟨hkept, -⟩, -⟩
  have hlan := hkept "lan" (.inl (by decide))
  exact absurd hlan (by decide)

/-! ### Runs of the user's operations -/

def RouteSelector.filterSelected (rs : RouteSelector) (routes : HAMap) : HAMap :=
  if rs.deselectAll then ∅
  else Keyed.collect (fun haID rt =>
    if netID haID ∈ rs.deselectedRoutes then none else some rt) routes

structure RouteSelector.Coherent (rs : RouteSelector) : Prop where
  disjoint : ∀ n ∈ rs.selectedRoutes, n ∉ rs.deselectedRoutes
  empty : rs.deselectAll = true → rs.selectedRoutes = ∅ ∧ rs.deselectedRoutes = ∅

theorem RouteSelector.Coherent.select (h : rs.Coherent) (routes : List String) (append : Bool)
    (allRoutes : List String) : (rs.selectRoutes routes append allRoutes).1.Coherent where
  disjoint n hn := by
    rw [mem_selected_select] at hn
    rw [mem_deselected_select]
    rintro ⟨hdes, hnot⟩
    have hsel := hn.resolve_right hnot
    split_ifs at hsel hdes
    exact h.disjoint n hsel hdes
  empty h := nomatch h

theorem RouteSelector.Coherent.deselect (h : rs.Coherent) (routes allRoutes : List String) :
    (rs.deselectRoutes routes allRoutes).1.Coherent := by
  cases hall : rs.deselectAll with
  | true =>
    rw [deselectRoutes, if_pos hall]
    exact h
  | false =>
    refine ⟨fun n hn => ?_, fun h => ?_⟩
    · rw [mem_selected_deselect hall] at hn
      rw [mem_deselected_deselect hall, not_or]
      exact ⟨h.disjoint n hn.1, hn.2⟩
    · rw [deselectRoutes_deselectAll, hall] at h
      cases h

theorem coherent_after (ops : List UserOp) :
    ((ops.map Event.user).foldl State.step State.init).selector.Coherent := by
  have hnew : RouteSelector.new.Coherent := ⟨nofun, nofun⟩
  -- the saved selector is coherent as well
  suffices h : ∀ st : State, st.selector.Coherent ∧ (unmarshalJSON st.file).Coherent →
      ((ops.map Event.user).foldl State.step st).selector.Coherent from h _ ⟨hnew, hnew⟩
  induction ops with
  | nil => exact fun st h => h.1
  | cons op ops ih =>
    intro st ⟨hcurrent, hsaved⟩
    refine ih _ ?_
    cases op with
    | selectRoutes routes append allRoutes => exact ⟨hcurrent.select routes append allRoutes, hsaved⟩
    | deselectRoutes routes allRoutes => exact ⟨hcurrent.deselect routes allRoutes, hsaved⟩
    | selectAllRoutes => exact ⟨hnew, hsaved⟩
    | deselectAllRoutes => exact ⟨⟨nofun, fun _ => ⟨rfl, rfl⟩⟩, hsaved⟩
    | save => exact ⟨hcurrent, hcurrent⟩
    | load => exact ⟨hsaved, hsaved⟩

/-- The filters keep selected networks, and all of a network that is not an exit node. -/
structure RouteSelector.FiltersSelected (rs : RouteSelector) (routes : HAMap) : Prop where
  all : ∀ haID rt, (rs.filterSelected routes).lookup haID = some rt ↔
    routes.lookup haID = some rt ∧ rs.isSelected (netID haID) = true
  exitNodes : ∀ haID rt', (rs.filterSelectedExitNodes routes).lookup haID = some rt' →
    rs.isSelected (netID haID) = true ∧ ∃ rt, routes.lookup haID = some rt ∧ rt'.Sublist rt ∧
      (isExitNode rt = true → rt' ≠ [])
  others : ∀ haID rt, routes.lookup haID = some rt → isExitNode rt = false →
    rs.isSelected (netID haID) = true → (rs.filterSelectedExitNodes routes).lookup haID = some rt

theorem filtersSelected (rs : RouteSelector) (routes : HAMap) : rs.FiltersSelected routes := by
  cases hall : rs.deselectAll with
  | true =>
    have hnone : ∀ n, rs.isSelected n ≠ true := fun n => by simp [isSelected_of_deselectAll hall]
    refine ⟨fun haID rt => ?_, fun haID rt' h => ?_, fun _ _ _ _ h => absurd h (hnone _)⟩
    · simp [filterSelected, hall, hnone]
    · simp [filterSelectedExitNodes, hall] at h
  | false =>
    have hselected : ∀ n, rs.isSelected n = true ↔ n ∉ rs.deselectedRoutes := fun n => by
      simp [isSelected_of_not_deselectAll hall]
    refine ⟨fun haID rt => ?_, fun haID rt' h => ?_, fun haID rt hrt hexit h => ?_⟩
    · rw [filterSelected, if_neg (by simp [hall]), Keyed.lookup_collect, hselected]
      cases routes.lookup haID <;> simp [and_comm]
    · rw [lookup_filterSelectedExitNodes hall] at h
      obtain ⟨rt, hrt, h⟩ := bind_eq_some_iff.mp h
      split_ifs at h with hdes hexit
      · obtain rfl := some.inj h
        exact ⟨(hselected _).mpr hdes, rt, hrt, .refl _, fun h => by simp [h] at hexit⟩
      · simp only [applyExitNodeFilter] at h
        split_ifs at h with _ _ hlen
        · obtain rfl := some.inj h
          refine ⟨(hselected _).mpr hdes, rt, hrt, .refl _, fun _ => ?_⟩
          rintro rfl
          exact hexit rfl
        · obtain rfl := some.inj h
          exact ⟨(hselected _).mpr hdes, rt, hrt, List.filter_sublist,
            fun _ => List.length_pos_iff.mp hlen⟩
    · rw [lookup_filterSelectedExitNodes hall, hrt]
      simp [(hselected _).mp h, hexit]

/-- **The selector stays coherent** under the user's operations, and its filters agree with
`IsSelected`. -/
theorem selector_coherent (ops : List UserOp) (routes : HAMap) :
    ((ops.map Event.user).foldl State.step State.init).selector.Coherent ∧
      ((ops.map Event.user).foldl State.step State.init).selector.FiltersSelected routes :=
  ⟨coherent_after ops, filtersSelected _ routes⟩

/-! ### Runs without a user -/

variable (maps : List HAMap)

/-- The selector after the updates, if the user never did anything. -/
def selectorAfter : RouteSelector :=
  maps.foldl updateRouteSelectorFromManagement RouteSelector.new

/-- The first of the maps in which the network is an exit node. -/
def firstExit (n : String) : Option HAMap :=
  maps.find? fun m => hasExitNode m n

/-- The exit nodes of the map pass the filter if one of their routes is to be applied, and
all other networks pass unchanged. -/
def Follows (rs : RouteSelector) (m : HAMap) : Prop :=
  ∀ haID rt, m.lookup haID = some rt →
    if isExitNode rt then
      ((rs.filterSelectedExitNodes m).lookup haID).isSome = rt.any fun r => !r.skipAutoApply
    else (rs.filterSelectedExitNodes m).lookup haID = some rt

/-- After each update the filter follows the map of that update. -/
def FollowsManagement : Prop :=
  ∀ before m after, maps = before ++ m :: after → Follows (selectorAfter (before ++ [m])) m

/-- Every network of an update that some update so far had as an exit node was to be applied
in the first of these as it is to pass now. -/
def FirstDecides : Prop :=
  ∀ before m after, maps = before ++ m :: after →
    ∀ haID rt first, m.lookup haID = some rt →
      firstExit (before ++ [m]) (netID haID) = some first →
      autoApplied first (netID haID) = (!isExitNode rt || rt.any fun r => !r.skipAutoApply)

theorem recorded_after : (selectorAfter maps).deselectAll = false ∧ ∀ n,
      (n ∈ (selectorAfter maps).deselectedRoutes ↔
        ∃ first, firstExit maps n = some first ∧ autoApplied first n = false) ∧
      (n ∈ (selectorAfter maps).selectedRoutes ↔
        ∃ first, firstExit maps n = some first ∧ autoApplied first n = true) := by
  induction maps using List.reverseRecOn with
  | nil => simp [selectorAfter, firstExit, RouteSelector.new]
  | append_singleton maps m ih =>
    obtain ⟨hflag, hrecorded⟩ := ih
    have hafter : selectorAfter (maps ++ [m]) =
        (selectorAfter maps).updateRouteSelectorFromManagement m := List.foldl_append
    rw [hafter]
    refine ⟨(update_of_not_deselectAll (n := "") m hflag).1, fun n => ?_⟩
    obtain ⟨-, hdes, hsel⟩ := update_of_not_deselectAll (n := n) m hflag
    rw [hdes, hsel, (hrecorded n).1, (hrecorded n).2]
    have hfirst : firstExit (maps ++ [m]) n =
        (firstExit maps n).or (if hasExitNode m n then some m else none) := by
      rw [firstExit, List.find?_append, List.find?_singleton]
      rfl
    rw [hfirst]
    -- an exit node that was there before keeps its entry, a new one gets that of this map
    rcases hold : firstExit maps n with _ | first
    · cases hexit : hasExitNode m n
      · have hauto : autoApplied m n = false :=
          Bool.eq_false_of_not_eq_true fun h => by simp [hasExitNode_of_autoApplied h] at hexit
        simp [hauto]
      · cases hauto : autoApplied m n <;> simp [hauto]
    · cases hauto : autoApplied first n <;> simp [hauto]

/-- What a selector that recorded the exit nodes of the map lets through. -/
theorem lookup_filter_of_recorded (hflag : rs.deselectAll = false)
    (hrecorded : ∀ n, hasExitNode m n = true → rs.hasUserSelectionForRoute n = true)
    {haID : String} {rt : List Route} (hrt : m.lookup haID = some rt) :
    (rs.filterSelectedExitNodes m).lookup haID =
      if netID haID ∈ rs.deselectedRoutes then none else some rt := by
  rw [lookup_filterSelectedExitNodes hflag, hrt, bind_some]
  by_cases hdes : netID haID ∈ rs.deselectedRoutes
  · rw [if_pos hdes, if_pos hdes]
  by_cases hexit : isExitNode rt = true
  · have hn : hasExitNode m (netID haID) = true := hasExitNode_of_lookup hrt hexit
    have hselections : rs.hasUserSelections = true := by
      rcases hasUserSelectionForRoute_iff.mp (hrecorded _ hn) with h | h
      · simp [hasUserSelections, Finset.card_pos.mpr ⟨_, h⟩]
      · exact absurd h hdes
    simp [hexit, applyExitNodeFilter, hselections, isSelected, hflag, hdes]
  · simp [hexit]

/-- A network of the latest map passes as it should if and only if the first map that had it
as an exit node says so. -/
theorem follows_map_iff (before : List HAMap) (m : HAMap) :
    Follows (selectorAfter (before ++ [m])) m ↔ ∀ haID rt first, m.lookup haID = some rt →
        firstExit (before ++ [m]) (netID haID) = some first →
        autoApplied first (netID haID) = (!isExitNode rt || rt.any fun r => !r.skipAutoApply) := by
  obtain ⟨hflag, hafter⟩ := recorded_after (before ++ [m])
  have hfirst : ∀ n, hasExitNode m n = true → (firstExit (before ++ [m]) n).isSome = true :=
    fun n hn => List.find?_isSome.mpr ⟨m, by simp, hn⟩
  have hrecorded : ∀ n, hasExitNode m n = true →
      (selectorAfter (before ++ [m])).hasUserSelectionForRoute n = true := by
    intro n hn
    obtain ⟨first, hf⟩ := isSome_iff_exists.mp (hfirst n hn)
    rw [hasUserSelectionForRoute_iff, (hafter n).1, (hafter n).2]
    cases hauto : autoApplied first n
    · exact .inr ⟨first, hf, hauto⟩
    · exact .inl ⟨first, hf, hauto⟩
  refine forall_congr' fun haID => forall_congr' fun rt => Iff.trans ?_ forall_comm
  refine imp_congr_right fun hrt => ?_
  rw [lookup_filter_of_recorded hflag hrecorded hrt]
  have hdes := (hafter (netID haID)).1
  rcases hf : firstExit (before ++ [m]) (netID haID) with _ | first
  · -- the network never was an exit node, so it is not one now
    have hexit : isExitNode rt = false := by
      by_contra hexit
      have := hfirst _ (hasExitNode_of_lookup hrt (Bool.eq_true_of_not_eq_false hexit))
      simp [hf] at this
    simp [hdes, hf, hexit]
  · cases hauto : autoApplied first (netID haID) <;> cases hexit : isExitNode rt <;>
      simp [hdes, hf, hauto]

/-- **Management's choices follow the latest update** after every update of a run without
user operations exactly if the first update with an exit node already said the same. -/
theorem followsManagement_iff (maps : List HAMap) : FollowsManagement maps ↔ FirstDecides maps := by
  constructor
  · intro h before m after hmaps
    exact (follows_map_iff before m).mp (h before m after hmaps)
  · intro h before m after hmaps
    exact (follows_map_iff before m).mpr (h before m after hmaps)

/-- Management wants the exit node applied at first and then not, but it still passes. -/
theorem exit_node_still_applied : ¬ FollowsManagement [exitMap false, exitMap true] := by
  intro h
  have hexit := h [exitMap false] (exitMap true) [] rfl "exit|0.0.0.0/0" _ rfl
  exact absurd hexit (by decide)

end Netbird.Client
