import Mathlib
import UsageReport.Proofs.Canonical

/-!
How much a text can hold: every value of its tree has cost a character of its own. The machine
that builds the tree makes it heavier by at most one with each token.
-/

namespace UsageReport.Json

mutual

/-- How many values there are in a tree, itself and the faults among them. -/
def Tree.weight {φ : Type} : Tree φ → Nat
  | .null | .flag _ | .number _ | .text _ | .fault _ => 1
  | .list items => items.weight + 1
  | .record members => members.weight + 1

def Items.weight {φ : Type} : Items φ → Nat
  | .close | .cut _ => 0
  | .item value rest => value.weight + rest.weight

def Members.weight {φ : Type} : Members φ → Nat
  | .close | .cut _ => 0
  | .member _ value rest => value.weight + rest.weight

end

section Tree

variable {φ : Type}

theorem Tree.weight_pos : ∀ tree : Tree φ, 0 < tree.weight
  | .null | .flag _ | .number _ | .text _ | .fault _ => by simp only [weight, Nat.zero_lt_one]
  | .list _ | .record _ => by
      simp only [weight]
      exact Nat.succ_pos _

theorem Items.weight_le_of_mem {child : Tree φ} : ∀ {items : Items φ}, child ∈ items.values →
    child.weight ≤ items.weight
  | .item value rest, hchild => by
      rw [weight]
      rcases List.mem_cons.mp hchild with rfl | hrest
      · exact Nat.le_add_right _ _
      · exact Nat.le_add_left_of_le (weight_le_of_mem hrest)

theorem Members.weight_le_of_mem {child : Tree φ} {name : Except φ String} :
    ∀ {members : Members φ}, (name, child) ∈ members.entries → child.weight ≤ members.weight
  | .member _ value rest, hchild => by
      rw [weight]
      rcases List.mem_cons.mp hchild with hhead | hrest
      · cases hhead
        exact Nat.le_add_right _ _
      · exact Nat.le_add_left_of_le (weight_le_of_mem hrest)

theorem Items.length_values_le : ∀ items : Items φ, items.values.length ≤ items.weight
  | .close | .cut _ => Nat.le_refl _
  | .item value rest => by
      have hvalue := value.weight_pos
      have hrest := length_values_le rest
      simp only [values, weight, List.length_cons]
      omega

theorem Tree.weight_lt_of_mem_children {tree child : Tree φ} (hchild : child ∈ tree.children) :
    child.weight < tree.weight := by
  cases tree with
  | list items =>
      rw [weight, Nat.lt_succ_iff]
      exact Items.weight_le_of_mem hchild
  | record members =>
      obtain ⟨⟨name, _⟩, hentry, rfl⟩ := List.mem_map.mp hchild
      rw [weight, Nat.lt_succ_iff]
      exact Members.weight_le_of_mem hentry
  | null | flag _ | number _ | text _ | fault _ =>
      simp only [children, List.not_mem_nil] at hchild

end Tree

/-- A list that is read has no more items than its tree has values. -/
theorem Shape.length_lt_of_read {α : Type} {item : Shape α} {tree : Tree Fault} {values : List α}
    (hread : (Shape.list item).read tree = .ok values) : values.length < tree.weight := by
  simp only [Shape.read] at hread
  obtain ⟨items, rfl, hitems⟩ := Tree.readList_eq_ok_iff.mp hread
  rw [Tree.weight, Nat.lt_succ_iff, ← (Items.forall₂_of_read hitems).length_eq]
  exact items.length_values_le

namespace Document

namespace Frame

def values : Frame → List (Tree Fault)
  | .list items => items
  | .record members | .member members _ => members.map Prod.snd

/-- The list or record itself counts as a value. -/
def weight (frame : Frame) : Nat := (frame.values.map Tree.weight).sum + 1

theorem weight_closeItems (ending : Items Fault) (items : List (Tree Fault)) :
    (closeItems ending items).weight = (items.map Tree.weight).sum + ending.weight := by
  induction items generalizing ending with
  | nil => exact (Nat.zero_add _).symm
  | cons value items ih =>
      rw [closeItems, List.foldl_cons, ← closeItems, ih, Items.weight, List.map_cons,
        List.sum_cons]
      omega

theorem weight_closeMembers (ending : Members Fault)
    (members : List (Except Fault String × Tree Fault)) :
    (closeMembers ending members).weight =
      ((members.map Prod.snd).map Tree.weight).sum + ending.weight := by
  induction members generalizing ending with
  | nil => exact (Nat.zero_add _).symm
  | cons entry members ih =>
      rw [closeMembers, List.foldl_cons, ← closeMembers, ih, Members.weight, List.map_cons,
        List.map_cons, List.sum_cons]
      omega

theorem weight_close (frame : Frame) : frame.close.weight = frame.weight := by
  cases frame <;>
    simp only [close, Tree.weight, weight_closeItems, weight_closeMembers, Items.weight,
      Members.weight, weight, values, Nat.add_zero]

theorem weight_cut (fault : Fault) (frame : Frame) : (frame.cut fault).weight = frame.weight := by
  cases frame <;>
    simp only [cut, Tree.weight, weight_closeItems, weight_closeMembers, Items.weight,
      Members.weight, weight, values, Nat.add_zero]

theorem weight_add_le (value : Tree Fault) (frame : Frame) :
    (frame.add value).weight ≤ value.weight + frame.weight := by
  cases frame <;> simp only [add, weight, values, List.map_cons, List.sum_cons] <;> omega

end Frame

def heaviness (frames : List Frame) : Nat := (frames.map Frame.weight).sum

theorem heaviness_cons (frame : Frame) (outer : List Frame) :
    heaviness (frame :: outer) = frame.weight + heaviness outer := by
  rw [heaviness, List.map_cons, List.sum_cons, heaviness]

theorem weight_cutAll_le (fault : Fault) (value : Tree Fault) (frames : List Frame) :
    (cutAll fault value frames).weight ≤ value.weight + heaviness frames := by
  -- A frame that has taken in the value and is cut is the value of the next frame outside.
  induction frames generalizing value with
  | nil => exact Nat.le_refl _
  | cons frame outer ih =>
      have hadd := frame.weight_add_le value
      have houter := ih ((frame.add value).cut fault)
      rw [Frame.weight_cut] at houter
      rw [cutAll, heaviness_cons]
      omega

theorem weight_stopAtValue_le (fault : Fault) (frames : List Frame) :
    (stopAtValue fault frames).root.weight ≤ heaviness frames + 1 := by
  have hcut := weight_cutAll_le fault (.fault fault) frames
  rw [Tree.weight, Nat.add_comm] at hcut
  exact hcut

theorem weight_stopInside_le (fault : Fault) (frames : List Frame) :
    (stopInside fault frames).root.weight ≤ heaviness frames + 1 := by
  cases frames with
  | nil => exact Nat.le_refl _
  | cons frame outer =>
      have hcut := weight_cutAll_le fault (frame.cut fault) outer
      rw [Frame.weight_cut] at hcut
      rw [heaviness_cons]
      exact Nat.le_succ_of_le hcut

namespace State

/-- The values that have been read so far. -/
def weight : State → Nat
  | .reading _ frames => heaviness frames
  | .complete root => root.weight
  | .stopped document => document.root.weight

theorem weight_place_le (value : Tree Fault) (frames : List Frame) :
    (place value frames).weight ≤ value.weight + heaviness frames := by
  cases frames with
  | nil => exact Nat.le_refl _
  | cons frame outer =>
      have hadd := frame.weight_add_le value
      simp only [place, weight, heaviness_cons]
      omega

theorem weight_scalarOf {token : Token} {value : Tree Fault}
    (hvalue : scalarOf token = some value) : value.weight = 1 := by
  unfold scalarOf at hvalue
  split at hvalue <;> cases hvalue <;> rfl

theorem weight_takeValue_le (frames : List Frame) (token : Token) :
    (takeValue frames token).weight ≤ heaviness frames + 1 := by
  unfold takeValue
  split
  · exact Nat.le_of_eq ((heaviness_cons _ _).trans (Nat.add_comm _ _))
  · exact Nat.le_of_eq ((heaviness_cons _ _).trans (Nat.add_comm _ _))
  · split
    · rename_i value hvalue
      have hplace := weight_place_le value frames
      rw [weight_scalarOf hvalue, Nat.add_comm] at hplace
      exact hplace
    · exact weight_stopAtValue_le _ frames

theorem weight_takeName_le (frames : List Frame) (token : Token) :
    (takeName frames token).weight ≤ heaviness frames + 1 := by
  unfold takeName
  split
  · exact Nat.le_succ _
  · exact weight_stopInside_le _ _

theorem weight_takeSeparator_le (frames : List Frame) (token : Token) :
    (takeSeparator frames token).weight ≤ heaviness frames + 1 := by
  unfold takeSeparator
  split
  · exact Nat.le_succ _
  · exact Nat.le_succ _
  · rename_i items outer
    have hplace := weight_place_le (Frame.list items).close outer
    rw [Frame.weight_close, ← heaviness_cons] at hplace
    exact Nat.le_succ_of_le hplace
  · rename_i members outer
    have hplace := weight_place_le (Frame.record members).close outer
    rw [Frame.weight_close, ← heaviness_cons] at hplace
    exact Nat.le_succ_of_le hplace
  · exact weight_stopInside_le _ _

theorem weight_step_le (state : State) (token : Token) :
    (state.step token).weight ≤ state.weight + 1 := by
  unfold step
  split
  · exact Nat.le_succ _
  · exact Nat.le_succ _
  · rename_i position frames
    split
    · exact weight_takeValue_le frames token
    · exact weight_takeSeparator_le frames _
    · exact weight_takeValue_le frames token
    · exact weight_takeSeparator_le frames _
    · exact weight_takeName_le frames token
    · exact weight_takeName_le frames token
    · exact Nat.le_succ _
    · exact weight_stopAtValue_le _ frames
    · exact weight_takeSeparator_le frames token

theorem weight_foldl_step_le (tokens : List Token) (state : State) :
    (tokens.foldl step state).weight ≤ state.weight + tokens.length := by
  induction tokens generalizing state with
  | nil => exact Nat.le_refl _
  | cons token tokens ih =>
      have hstep := weight_step_le state token
      have hrest := ih (state.step token)
      rw [List.foldl_cons, List.length_cons]
      omega

theorem weight_finish_le (state : State) : state.finish.root.weight ≤ state.weight + 1 := by
  cases state with
  | reading position frames =>
      simp only [finish, weight]
      unfold stopAtEnd
      split
      · exact weight_stopAtValue_le _ _
      · exact weight_stopAtValue_le _ _
      · exact weight_stopInside_le _ _
  | complete root => exact Nat.le_succ _
  | stopped document => exact Nat.le_succ _

end State

end Document

theorem Token.length_scan_le (text : List Char) : (Token.scan text).length ≤ text.length := by
  fun_induction Token.scan text with
  | case1 => exact Nat.le_refl _
  | case2 c rest _ ih => exact Nat.le_succ_of_le ih
  | case3 c rest _ ih => exact Nat.succ_le_succ (Nat.le_trans ih (Token.length_read_le c rest))

/-- The one value more is the fault at the end of a text that is cut short. -/
theorem Document.weight_root_le (text : String) :
    (Document.ofText text).root.weight ≤ text.length + 1 := by
  have hscan := Token.length_scan_le text.toList
  have hfold := State.weight_foldl_step_le (Token.scan text.toList) .start
  have hfinish := State.weight_finish_le ((Token.scan text.toList).foldl State.step .start)
  have hstart : State.start.weight = 0 := rfl
  rw [String.length_toList] at hscan
  rw [ofText, ofTokens]
  omega

end UsageReport.Json
