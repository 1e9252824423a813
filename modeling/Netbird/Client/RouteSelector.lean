/-
The client's route selector and what management writes into it.

The selector holds the networks the user selected and deselected, and a flag for "none at
all".  When management sends routes, `updateRouteSelectorFromManagement` writes its own
choice for every exit node without an entry into the same two maps, through the functions
that serve the user.

* `lookup_filterSelectedExitNodes` — what passes the filter;
* `update_of_not_deselectAll` — an update while not everything is deselected: entries stay,
  exit nodes without one get one.
-/
import Mathlib.Data.Fintype.EquivFin
import Netbird.Types.Account

namespace Netbird.Client

open List

def exitNodeCIDR : String := "0.0.0.0/0"

/-- `route.HAMap`, the routes of each network by its `HAUniqueID`. -/
abbrev HAMap := AList fun _ : String => List Route

/-- `HAUniqueID.NetID`: what stands before the last separator. -/
def netID (haID : String) : String :=
  match haID.toList.reverse.dropWhile (· ≠ '|') with
  | [] => haID
  | _ :: rest => String.ofList rest.reverse

def isExitNode : List Route → Bool
  | [] => false
  | r :: _ => r.network.text == exitNodeCIDR

/-! ### The selector -/

structure RouteSelector where
  deselectedRoutes : Finset String
  selectedRoutes : Finset String
  deselectAll : Bool
  deriving DecidableEq

namespace RouteSelector

def new : RouteSelector := ⟨∅, ∅, false⟩

def unavailable (route : String) : String :=
  "route '" ++ route ++ "' is not available"

variable (rs : RouteSelector)

/-- One round of the loop of `SelectRoutes`, with the errors so far. -/
def selectStep (allRoutes : List String) (st : RouteSelector × List String) (route : String) :
    RouteSelector × List String :=
  if route ∈ allRoutes then
    ({ st.1 with
        deselectedRoutes := st.1.deselectedRoutes.erase route
        selectedRoutes := insert route st.1.selectedRoutes }, st.2)
  else (st.1, st.2 ++ [unavailable route])

def selectRoutes (routes : List String) (appendRoute : Bool) (allRoutes : List String) :
    RouteSelector × List String :=
  let start : RouteSelector :=
    if !appendRoute || rs.deselectAll then ⟨allRoutes.toFinset, ∅, rs.deselectAll⟩ else rs
  let (st, errs) := routes.foldl (selectStep allRoutes) (start, [])
  ({ st with deselectAll := false }, errs)

def selectAllRoutes : RouteSelector := ⟨∅, ∅, false⟩

/-- One round of the loop of `DeselectRoutes`. -/
def deselectStep (allRoutes : List String) (st : RouteSelector × List String) (route : String) :
    RouteSelector × List String :=
  if route ∈ allRoutes then
    ({ st.1 with
        deselectedRoutes := insert route st.1.deselectedRoutes
        selectedRoutes := st.1.selectedRoutes.erase route }, st.2)
  else (st.1, st.2 ++ [unavailable route])

def deselectRoutes (routes allRoutes : List String) : RouteSelector × List String :=
  if rs.deselectAll then (rs, []) else routes.foldl (deselectStep allRoutes) (rs, [])

def deselectAllRoutes : RouteSelector := ⟨∅, ∅, true⟩

variable (routeID : String)

def isSelected : Bool :=
  if rs.deselectAll then false else decide (routeID ∉ rs.deselectedRoutes)

def hasUserSelectionForRoute : Bool :=
  decide (routeID ∈ rs.selectedRoutes) || decide (routeID ∈ rs.deselectedRoutes)

def isDeselected : Bool :=
  decide (routeID ∈ rs.deselectedRoutes) || rs.deselectAll

def hasUserSelections : Bool :=
  decide (0 < rs.selectedRoutes.card) || decide (0 < rs.deselectedRoutes.card)

def collectSelected (rt : List Route) : List Route :=
  rt.filter fun r => !r.skipAutoApply

/-- `applyExitNodeFilter`, the routes it puts into the map if any. -/
def applyExitNodeFilter (rt : List Route) : Option (List Route) :=
  if rs.hasUserSelections then
    if rs.isSelected routeID then some rt else none
  else
    let sel := collectSelected rt
    if 0 < sel.length then some sel else none

def filterSelectedExitNodes (routes : HAMap) : HAMap :=
  if rs.deselectAll then ∅
  else Keyed.collect (fun haID rt =>
    if rs.isDeselected (netID haID) then none
    else if !isExitNode rt then some rt
    else rs.applyExitNodeFilter (netID haID) rt) routes

/-- What `MarshalJSON` writes.  A map that is `null` or missing in the text is `none`. -/
structure Saved where
  selectedRoutes : Option (Finset String)
  deselectedRoutes : Option (Finset String)
  deselectAll : Bool

def marshalJSON : Saved := ⟨some rs.selectedRoutes, some rs.deselectedRoutes, rs.deselectAll⟩

/-- `UnmarshalJSON`; `none` is the empty or `null` text. -/
def unmarshalJSON : Option Saved → RouteSelector
  | none => new
  | some temp => ⟨temp.deselectedRoutes.getD ∅, temp.selectedRoutes.getD ∅, temp.deselectAll⟩

end RouteSelector

/-! ### The update from management -/

structure ExitNodeInfo where
  allIDs : List String
  selectedByManagement : List String
  userSelected : List String
  userDeselected : List String

namespace RouteSelector

variable (rs : RouteSelector)

/-- `checkManagementSelection`: one route to apply is enough. -/
def checkManagementSelection (routes : List Route) : Bool :=
  routes.any fun r => !r.skipAutoApply

/-- One network of `collectExitNodeInfo`. -/
def collectStep (info : ExitNodeInfo) (entry : Sigma fun _ : String => List Route) :
    ExitNodeInfo :=
  if !isExitNode entry.2 then info
  else
    let id := netID entry.1
    let info := { info with allIDs := info.allIDs ++ [id] }
    if rs.hasUserSelectionForRoute id then
      if rs.isSelected id then { info with userSelected := info.userSelected ++ [id] }
      else { info with userDeselected := info.userDeselected ++ [id] }
    else if checkManagementSelection entry.2 then
      { info with selectedByManagement := info.selectedByManagement ++ [id] }
    else info

def collectExitNodeInfo (clientRoutes : HAMap) : ExitNodeInfo :=
  clientRoutes.entries.foldl rs.collectStep ⟨[], [], [], []⟩

def getRoutesToDeselect (allIDs : List String) : List String :=
  allIDs.filter fun id => !rs.hasUserSelectionForRoute id

def deselectExitNodes (routesToDeselect : List String) : RouteSelector :=
  if routesToDeselect.length = 0 then rs
  else (rs.deselectRoutes routesToDeselect routesToDeselect).1

def selectExitNodesByManagement (selectedByManagement allIDs : List String) : RouteSelector :=
  if selectedByManagement.length = 0 then rs
  else (rs.selectRoutes selectedByManagement true allIDs).1

def updateExitNodeSelections (info : ExitNodeInfo) : RouteSelector :=
  (rs.deselectExitNodes (rs.getRoutesToDeselect info.allIDs)).selectExitNodesByManagement
    info.selectedByManagement info.allIDs

def updateRouteSelectorFromManagement (clientRoutes : HAMap) : RouteSelector :=
  let info := rs.collectExitNodeInfo clientRoutes
  if info.allIDs.length = 0 then rs else rs.updateExitNodeSelections info

/-! ### The two loops -/

variable {rs} {st : RouteSelector × List String} {routes allRoutes : List String} {n : String}
variable {append : Bool}

theorem foldl_selectStep :
    (routes.foldl (selectStep allRoutes) st).1.deselectAll = st.1.deselectAll ∧
    (n ∈ (routes.foldl (selectStep allRoutes) st).1.deselectedRoutes ↔
      n ∈ st.1.deselectedRoutes ∧ ¬ (n ∈ routes ∧ n ∈ allRoutes)) ∧
    (n ∈ (routes.foldl (selectStep allRoutes) st).1.selectedRoutes ↔
      n ∈ st.1.selectedRoutes ∨ (n ∈ routes ∧ n ∈ allRoutes)) := by
  induction routes generalizing st with
  | nil => simp
  | cons r routes ih =>
    rw [foldl_cons]
    obtain ⟨hall, hdes, hsel⟩ := @ih (selectStep allRoutes st r)
    rw [hall, hdes, hsel, selectStep]
    split_ifs with hr
    · refine ⟨rfl, ?_, ?_⟩ <;> simp only [Finset.mem_erase, Finset.mem_insert, mem_cons] <;> grind
    · refine ⟨rfl, ?_, ?_⟩ <;> simp only [mem_cons] <;> grind

theorem foldl_deselectStep :
    (routes.foldl (deselectStep allRoutes) st).1.deselectAll = st.1.deselectAll ∧
    (n ∈ (routes.foldl (deselectStep allRoutes) st).1.deselectedRoutes ↔
      n ∈ st.1.deselectedRoutes ∨ (n ∈ routes ∧ n ∈ allRoutes)) ∧
    (n ∈ (routes.foldl (deselectStep allRoutes) st).1.selectedRoutes ↔
      n ∈ st.1.selectedRoutes ∧ ¬ (n ∈ routes ∧ n ∈ allRoutes)) := by
  induction routes generalizing st with
  | nil => simp
  | cons r routes ih =>
    rw [foldl_cons]
    obtain ⟨hall, hdes, hsel⟩ := @ih (deselectStep allRoutes st r)
    rw [hall, hdes, hsel, deselectStep]
    split_ifs with hr
    · refine ⟨rfl, ?_, ?_⟩ <;> simp only [Finset.mem_erase, Finset.mem_insert, mem_cons] <;> grind
    · refine ⟨rfl, ?_, ?_⟩ <;> simp only [mem_cons] <;> grind

/-- Whether `SelectRoutes` starts from nothing. -/
def replaces (rs : RouteSelector) (append : Bool) : Bool := !append || rs.deselectAll

theorem selectRoutes_deselectAll : (rs.selectRoutes routes append allRoutes).1.deselectAll = false :=
  rfl

theorem mem_deselected_select : n ∈ (rs.selectRoutes routes append allRoutes).1.deselectedRoutes ↔
      (if rs.replaces append then n ∈ allRoutes else n ∈ rs.deselectedRoutes) ∧
        ¬ (n ∈ routes ∧ n ∈ allRoutes) := by
  refine foldl_selectStep.2.1.trans (and_congr_left' ?_)
  rw [replaces]
  split <;> simp

theorem mem_selected_select : n ∈ (rs.selectRoutes routes append allRoutes).1.selectedRoutes ↔
      (if rs.replaces append then False else n ∈ rs.selectedRoutes) ∨
        (n ∈ routes ∧ n ∈ allRoutes) := by
  refine foldl_selectStep.2.2.trans (or_congr_left ?_)
  rw [replaces]
  split <;> simp

theorem deselectRoutes_deselectAll :
    (rs.deselectRoutes routes allRoutes).1.deselectAll = rs.deselectAll := by
  rw [deselectRoutes]
  split
  · rfl
  · exact (foldl_deselectStep (n := "")).1

theorem mem_deselected_deselect (h : rs.deselectAll = false) :
    n ∈ (rs.deselectRoutes routes allRoutes).1.deselectedRoutes ↔
      n ∈ rs.deselectedRoutes ∨ (n ∈ routes ∧ n ∈ allRoutes) := by
  rw [deselectRoutes, h]
  exact foldl_deselectStep.2.1

theorem mem_selected_deselect (h : rs.deselectAll = false) :
    n ∈ (rs.deselectRoutes routes allRoutes).1.selectedRoutes ↔
      n ∈ rs.selectedRoutes ∧ ¬ (n ∈ routes ∧ n ∈ allRoutes) := by
  rw [deselectRoutes, h]
  exact foldl_deselectStep.2.2

theorem unmarshalJSON_marshalJSON : unmarshalJSON (some rs.marshalJSON) = rs := rfl

theorem isSelected_of_deselectAll (h : rs.deselectAll = true) : rs.isSelected n = false := by
  rw [isSelected, if_pos h]

theorem isSelected_of_not_deselectAll (h : rs.deselectAll = false) :
    rs.isSelected n = decide (n ∉ rs.deselectedRoutes) := by
  rw [isSelected, if_neg (by simp [h])]

/-- What passes the filter when not everything is deselected. -/
theorem lookup_filterSelectedExitNodes (h : rs.deselectAll = false) (m : HAMap) (haID : String) :
    (rs.filterSelectedExitNodes m).lookup haID = (m.lookup haID).bind fun rt =>
      if netID haID ∈ rs.deselectedRoutes then none
      else if !isExitNode rt then some rt
      else rs.applyExitNodeFilter (netID haID) rt := by
  rw [filterSelectedExitNodes, if_neg (by simp [h]), Keyed.lookup_collect]
  simp [isDeselected, h]

/-! ### An update from management -/

/-- The network is an exit node of the map. -/
def hasExitNode (m : HAMap) (n : String) : Bool :=
  m.entries.any fun e => isExitNode e.2 && netID e.1 == n

/-- … and management wants it applied. -/
def autoApplied (m : HAMap) (n : String) : Bool :=
  m.entries.any fun e => isExitNode e.2 && netID e.1 == n && checkManagementSelection e.2

variable {m : HAMap}

theorem hasExitNode_of_autoApplied (h : autoApplied m n = true) : hasExitNode m n = true := by
  simp only [autoApplied, hasExitNode, any_eq_true, Bool.and_eq_true] at *
  obtain ⟨e, he, hn, -⟩ := h
  exact ⟨e, he, hn⟩

theorem hasExitNode_of_lookup {haID : String} {rt : List Route} (hrt : m.lookup haID = some rt)
    (hexit : isExitNode rt = true) : hasExitNode m (netID haID) = true := by
  simp only [hasExitNode, any_eq_true]
  exact ⟨⟨haID, rt⟩, AList.mem_lookup_iff.mp hrt, by simp [hexit]⟩

theorem exists_not_exitNode (m : HAMap) : ∃ n, hasExitNode m n = false := by
  obtain ⟨n, hn⟩ := Infinite.exists_notMem_finset (m.entries.map fun e => netID e.1).toFinset
  refine ⟨n, Bool.eq_false_of_not_eq_true fun h => hn ?_⟩
  simp only [hasExitNode, any_eq_true, Bool.and_eq_true, beq_iff_eq] at h
  obtain ⟨e, he, -, rfl⟩ := h
  exact mem_toFinset.mpr (mem_map_of_mem he)

theorem foldl_collectStep (es : List (Sigma fun _ : String => List Route)) (info : ExitNodeInfo) :
    (n ∈ (es.foldl rs.collectStep info).allIDs ↔
      n ∈ info.allIDs ∨ es.any fun e => isExitNode e.2 && netID e.1 == n) ∧
    (n ∈ (es.foldl rs.collectStep info).selectedByManagement ↔
      n ∈ info.selectedByManagement ∨ (rs.hasUserSelectionForRoute n = false ∧
        es.any fun e => isExitNode e.2 && netID e.1 == n && checkManagementSelection e.2)) := by
  induction es generalizing info with
  | nil => simp
  | cons e es ih =>
    rw [foldl_cons, (ih _).1, (ih _).2, collectStep]
    by_cases he : isExitNode e.2 = true
    · by_cases hn : netID e.1 = n
      · subst hn
        by_cases hu : rs.hasUserSelectionForRoute (netID e.1) = true
        · by_cases hs : rs.isSelected (netID e.1) = true <;> simp [he, hu, hs]
        · by_cases hc : checkManagementSelection e.2 = true <;> simp [he, hu, hc]
      · have hne : n ≠ netID e.1 := Ne.symm hn
        by_cases hu : rs.hasUserSelectionForRoute (netID e.1) = true
        · by_cases hs : rs.isSelected (netID e.1) = true <;> simp [he, hu, hs, hn, hne]
        · by_cases hc : checkManagementSelection e.2 = true <;> simp [he, hu, hc, hn, hne]
    · simp [he]

theorem mem_allIDs : n ∈ (rs.collectExitNodeInfo m).allIDs ↔ hasExitNode m n = true :=
  (foldl_collectStep m.entries _).1.trans (by simp [hasExitNode])

theorem mem_selectedByManagement : n ∈ (rs.collectExitNodeInfo m).selectedByManagement ↔
      rs.hasUserSelectionForRoute n = false ∧ autoApplied m n = true :=
  (foldl_collectStep m.entries _).2.trans (by simp [autoApplied])

theorem mem_routesToDeselect {allIDs : List String} :
    n ∈ rs.getRoutesToDeselect allIDs ↔ n ∈ allIDs ∧ rs.hasUserSelectionForRoute n = false := by
  simp [getRoutesToDeselect]

theorem update_eq (m : HAMap) : rs.updateRouteSelectorFromManagement m =
      rs.updateExitNodeSelections (rs.collectExitNodeInfo m) := by
  rw [updateRouteSelectorFromManagement]
  split
  · next h =>
    have hall : ∀ n, hasExitNode m n ≠ true := fun n hn =>
      absurd (mem_allIDs.mpr hn) (by rw [eq_nil_of_length_eq_zero h]; exact not_mem_nil)
    have hsel : (rs.collectExitNodeInfo m).selectedByManagement = [] :=
      eq_nil_iff_forall_not_mem.mpr fun n hn =>
        hall n (hasExitNode_of_autoApplied (mem_selectedByManagement.mp hn).2)
    simp [updateExitNodeSelections, hsel, eq_nil_of_length_eq_zero h, getRoutesToDeselect,
      deselectExitNodes, selectExitNodesByManagement]
  · rfl

theorem deselectExitNodes_eq (l : List String) (h : rs.deselectAll = false) :
    (rs.deselectExitNodes l).deselectAll = false ∧
    (n ∈ (rs.deselectExitNodes l).deselectedRoutes ↔ n ∈ rs.deselectedRoutes ∨ n ∈ l) ∧
    (n ∈ (rs.deselectExitNodes l).selectedRoutes ↔ n ∈ rs.selectedRoutes ∧ n ∉ l) := by
  rw [deselectExitNodes]
  split
  · next hl => simp [eq_nil_of_length_eq_zero hl, h]
  · rw [deselectRoutes_deselectAll, mem_deselected_deselect h, mem_selected_deselect h, and_self_iff]
    exact ⟨h, Iff.rfl, Iff.rfl⟩

theorem selectExitNodesByManagement_eq {sel allIDs : List String} (h : rs.deselectAll = false)
    (hsub : ∀ n ∈ sel, n ∈ allIDs) :
    (rs.selectExitNodesByManagement sel allIDs).deselectAll = false ∧
    (n ∈ (rs.selectExitNodesByManagement sel allIDs).deselectedRoutes ↔
      n ∈ rs.deselectedRoutes ∧ n ∉ sel) ∧
    (n ∈ (rs.selectExitNodesByManagement sel allIDs).selectedRoutes ↔
      n ∈ rs.selectedRoutes ∨ n ∈ sel) := by
  rw [selectExitNodesByManagement]
  have hboth : n ∈ sel ∧ n ∈ allIDs ↔ n ∈ sel := and_iff_left_of_imp (hsub n)
  split
  · next hl => simp [eq_nil_of_length_eq_zero hl, h]
  · rw [mem_deselected_select, mem_selected_select, hboth]
    simp [selectRoutes_deselectAll, replaces, h]

variable (m) in
theorem update_of_not_deselectAll (h : rs.deselectAll = false) :
    (rs.updateRouteSelectorFromManagement m).deselectAll = false ∧
    (n ∈ (rs.updateRouteSelectorFromManagement m).deselectedRoutes ↔ n ∈ rs.deselectedRoutes ∨
        (n ∉ rs.selectedRoutes ∧ hasExitNode m n = true ∧ autoApplied m n = false)) ∧
    (n ∈ (rs.updateRouteSelectorFromManagement m).selectedRoutes ↔
      n ∈ rs.selectedRoutes ∨ (n ∉ rs.deselectedRoutes ∧ autoApplied m n = true)) := by
  set info := rs.collectExitNodeInfo m with hinfo
  set l := rs.getRoutesToDeselect info.allIDs
  have hsub : ∀ n ∈ info.selectedByManagement, n ∈ info.allIDs := fun n hn =>
    mem_allIDs.mpr (hasExitNode_of_autoApplied (mem_selectedByManagement.mp hn).2)
  obtain ⟨hd, hdes, hsel⟩ := deselectExitNodes_eq (n := n) l h
  obtain ⟨hd', hdes', hsel'⟩ := selectExitNodesByManagement_eq (n := n) hd hsub
  rw [update_eq]
  refine ⟨hd', hdes'.trans ?_, hsel'.trans ?_⟩
  · rw [hdes, mem_routesToDeselect, mem_allIDs, mem_selectedByManagement, hasUserSelectionForRoute]
    by_cases h₁ : n ∈ rs.selectedRoutes <;> by_cases h₂ : n ∈ rs.deselectedRoutes <;> simp [h₁, h₂]
  · rw [hsel, mem_routesToDeselect, mem_selectedByManagement, hasUserSelectionForRoute]
    by_cases h₁ : n ∈ rs.selectedRoutes <;> by_cases h₂ : n ∈ rs.deselectedRoutes <;> simp [h₁, h₂]

variable (h : rs.deselectAll = true)

include h

theorem update_of_deselectAll : rs.updateRouteSelectorFromManagement m =
      rs.selectExitNodesByManagement (rs.collectExitNodeInfo m).selectedByManagement
        (rs.collectExitNodeInfo m).allIDs := by
  have hnone : ∀ l, rs.deselectExitNodes l = rs := by
    intro l
    rw [deselectExitNodes, deselectRoutes, if_pos h, ite_self]
  rw [update_eq, updateExitNodeSelections, hnone]

/-- While everything is deselected, an update without a new exit node to apply does nothing. -/
theorem update_eq_self
    (hauto : ∀ n, rs.hasUserSelectionForRoute n = false → autoApplied m n = false) :
    rs.updateRouteSelectorFromManagement m = rs := by
  have hsel : (rs.collectExitNodeInfo m).selectedByManagement = [] := by
    refine eq_nil_iff_forall_not_mem.mpr fun n hn => ?_
    obtain ⟨hu, hn⟩ := mem_selectedByManagement.mp hn
    simp [hauto n hu] at hn
  rw [update_of_deselectAll h, hsel]
  rfl

/-- … and one with such an exit node selects everything that is not an exit node. -/
theorem isSelected_update_of_deselectAll {k : String}
    (hk : rs.hasUserSelectionForRoute k = false) (hauto : autoApplied m k = true)
    (hn : hasExitNode m n = false) :
    (rs.updateRouteSelectorFromManagement m).isSelected n = true := by
  have hmem : k ∈ (rs.collectExitNodeInfo m).selectedByManagement :=
    mem_selectedByManagement.mpr ⟨hk, hauto⟩
  rw [update_of_deselectAll h, selectExitNodesByManagement,
    if_neg (length_pos_iff.mpr (ne_nil_of_mem hmem)).ne',
    isSelected_of_not_deselectAll selectRoutes_deselectAll, decide_eq_true_iff, mem_deselected_select]
  simp [replaces, h, mem_allIDs, hn]

end RouteSelector

end Netbird.Client
