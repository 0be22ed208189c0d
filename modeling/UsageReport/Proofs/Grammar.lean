import UsageReport.Json.Document
import UsageReport.Proofs.Spelling

/-!
Well-formed values and their tokens. From the tokens of a well-formed value the machine builds that
value and has nothing left to say about the text, whatever lists and records were open before.
-/

namespace UsageReport.Json

def Token.separation (first : Bool) : List Token := if first then [] else [.comma]

mutual

/-- The tokens of a value. A number beyond all bounds and a text with a lone surrogate are
well-formed too: they are faults that can be skipped. -/
inductive Tree.Spelled : Tree Fault → List Token → Prop
  | scalar {token : Token} {tree : Tree Fault} (hscalar : Document.scalarOf token = some tree) :
      Tree.Spelled tree [token]
  | list {items : Items Fault} {tokens : List Token} (hitems : Items.Spelled true items tokens) :
      Tree.Spelled (.list items) (.openList :: tokens)
  | record {members : Members Fault} {tokens : List Token}
      (hmembers : Members.Spelled true members tokens) :
      Tree.Spelled (.record members) (.openRecord :: tokens)

/-- The tokens of items and of the closing bracket after them. The first item has no comma before
it. -/
inductive Items.Spelled : Bool → Items Fault → List Token → Prop
  | close {first : Bool} : Items.Spelled first .close [.closeList]
  | item {first : Bool} {value : Tree Fault} {rest : Items Fault} {tokens others : List Token}
      (hvalue : Tree.Spelled value tokens) (hrest : Items.Spelled false rest others) :
      Items.Spelled first (.item value rest) (Token.separation first ++ (tokens ++ others))

inductive Members.Spelled : Bool → Members Fault → List Token → Prop
  | close {first : Bool} : Members.Spelled first .close [.closeRecord]
  | member {first : Bool} {nameToken : Token} {name : Except Fault String} {value : Tree Fault}
      {rest : Members Fault} {tokens others : List Token}
      (hname : Document.nameOf nameToken = some name) (hvalue : Tree.Spelled value tokens)
      (hrest : Members.Spelled false rest others) :
      Members.Spelled first (.member name value rest)
        (Token.separation first ++ (nameToken :: .colon :: (tokens ++ others)))

end

/-- The value can be written, as a part of a text that a reader can skip. -/
def Tree.WellFormed (tree : Tree Fault) : Prop := ∃ tokens, tree.Spelled tokens

mutual

theorem Tree.Spelled.skip {tree : Tree Fault} {tokens : List Token} :
    tree.Spelled tokens → tree.skip = .ok ()
  | .scalar hscalar => by
      unfold Document.scalarOf at hscalar
      split at hscalar <;> cases hscalar <;> rfl
  | .list hitems => Items.Spelled.skip hitems
  | .record hmembers => Members.Spelled.skip hmembers

theorem Items.Spelled.skip {first : Bool} {items : Items Fault} {tokens : List Token} :
    items.Spelled first tokens → items.skip = .ok ()
  | .close => rfl
  | .item hvalue hrest => by
      rw [Items.skip, Tree.Spelled.skip hvalue]
      exact Items.Spelled.skip hrest

theorem Members.Spelled.skip {first : Bool} {members : Members Fault} {tokens : List Token} :
    members.Spelled first tokens → members.skip = .ok ()
  | .close => rfl
  | .member _ hvalue hrest => by
      rw [Members.skip, Tree.Spelled.skip hvalue]
      exact Members.Spelled.skip hrest

end

namespace Token

theorem punctuated_cons {token : Token} {rest : List Token} (htoken : token.isNumber = false) :
    Punctuated (token :: rest) ↔ Punctuated rest := by
  simp [Punctuated, List.isChain_cons, htoken]

theorem punctuated_separation (first : Bool) (rest : List Token) :
    Punctuated (separation first ++ rest) ↔ Punctuated rest := by
  cases first with
  | true => exact Iff.rfl
  | false => exact punctuated_cons rfl

theorem isNumber_of_nameOf {token : Token} {name : Except Fault String}
    (hname : Document.nameOf token = some name) : token.isNumber = false := by
  unfold Document.nameOf at hname
  split at hname <;> first | rfl | cases hname

end Token

section Punctuated

open Token

/-- After an entry of a list or record comes a comma or the closing bracket. -/
theorem Items.Spelled.isDivider_head {items : Items Fault} {tokens rest : List Token}
    (hitems : items.Spelled false tokens) :
    ∀ next ∈ (tokens ++ rest).head?, next.isDivider = true := by
  rintro next hnext
  cases hitems <;> cases hnext <;> rfl

theorem Members.Spelled.isDivider_head {members : Members Fault} {tokens rest : List Token}
    (hmembers : members.Spelled false tokens) :
    ∀ next ∈ (tokens ++ rest).head?, next.isDivider = true := by
  rintro next hnext
  cases hmembers <;> cases hnext <;> rfl

mutual

theorem Tree.Spelled.punctuated {tree : Tree Fault} {tokens rest : List Token} :
    tree.Spelled tokens → Punctuated rest → (∀ next ∈ rest.head?, next.isDivider = true) →
      Punctuated (tokens ++ rest)
  | .scalar _, hrest, hdivider =>
      List.isChain_cons.mpr ⟨fun next hnext _ => hdivider next hnext, hrest⟩
  | .list hitems, hrest, _ => (punctuated_cons rfl).mpr (Items.Spelled.punctuated hitems hrest)
  | .record hmembers, hrest, _ =>
      (punctuated_cons rfl).mpr (Members.Spelled.punctuated hmembers hrest)

theorem Items.Spelled.punctuated {first : Bool} {items : Items Fault} {tokens rest : List Token} :
    items.Spelled first tokens → Punctuated rest → Punctuated (tokens ++ rest)
  | .close, hrest => (punctuated_cons rfl).mpr hrest
  | .item hvalue hothers, hrest => by
      rw [List.append_assoc, punctuated_separation, List.append_assoc]
      exact Tree.Spelled.punctuated hvalue (Items.Spelled.punctuated hothers hrest)
        hothers.isDivider_head

theorem Members.Spelled.punctuated {first : Bool} {members : Members Fault}
    {tokens rest : List Token} :
    members.Spelled first tokens → Punctuated rest → Punctuated (tokens ++ rest)
  | .close, hrest => (punctuated_cons rfl).mpr hrest
  | .member hname hvalue hothers, hrest => by
      rw [List.append_assoc, punctuated_separation, List.cons_append, List.cons_append,
        punctuated_cons (isNumber_of_nameOf hname), punctuated_cons rfl, List.append_assoc]
      exact Tree.Spelled.punctuated hvalue (Members.Spelled.punctuated hothers hrest)
        hothers.isDivider_head

end

end Punctuated

namespace Document

/-- A value may start with any of its tokens where the first item of a list may stand. -/
theorem foldl_step_firstItem {tree : Tree Fault} {tokens : List Token}
    (htree : tree.Spelled tokens) (frames : List Frame) :
    tokens.foldl State.step (.reading .firstItem frames) =
      tokens.foldl State.step (.reading .value frames) := by
  cases htree with
  | list | record => rfl
  | @scalar token tree hscalar => cases token <;> first | rfl | cases hscalar

/-- The comma before an item leads to where a value may stand, and no comma to where the first item
may stand. -/
theorem foldl_step_separated {tree : Tree Fault} {tokens : List Token} (first : Bool)
    (done : List (Tree Fault)) (outer : List Frame) (htree : tree.Spelled tokens) :
    (Token.separation first ++ tokens).foldl State.step
        (.reading (if first then .firstItem else .separator) (.list done :: outer)) =
      tokens.foldl State.step (.reading .value (.list done :: outer)) := by
  cases first with
  | true => exact foldl_step_firstItem htree _
  | false => rfl

theorem foldl_step_separation (first : Bool) (done : List (Except Fault String × Tree Fault))
    (outer : List Frame) :
    (Token.separation first).foldl State.step
        (.reading (if first then .firstName else .separator) (.record done :: outer)) =
      .reading (if first then .firstName else .name) (.record done :: outer) := by
  cases first <;> rfl

theorem takeValue_of_scalarOf {token : Token} {tree : Tree Fault} (frames : List Frame)
    (hscalar : scalarOf token = some tree) :
    State.takeValue frames token = State.place tree frames := by
  unfold State.takeValue
  split
  · cases hscalar
  · cases hscalar
  · rw [hscalar]

theorem step_of_nameOf {token : Token} {name : Except Fault String} (first : Bool)
    (done : List (Except Fault String × Tree Fault)) (outer : List Frame)
    (hname : nameOf token = some name) :
    State.step (.reading (if first then .firstName else .name) (.record done :: outer)) token =
      .reading .colon (.member done name :: outer) := by
  cases first <;> cases token <;> simp_all [State.step, State.takeName, nameOf]

mutual

/-- From where a value may stand, the machine reads the value and puts it in its place. -/
theorem foldl_step_tree {tree : Tree Fault} {tokens : List Token} :
    tree.Spelled tokens → ∀ frames : List Frame,
      tokens.foldl State.step (.reading .value frames) = State.place tree frames
  | .scalar hscalar, frames => takeValue_of_scalarOf frames hscalar
  | .list hitems, frames => foldl_step_items hitems [] frames
  | .record hmembers, frames => foldl_step_members hmembers [] frames

theorem foldl_step_items {first : Bool} {items : Items Fault} {tokens : List Token} :
    items.Spelled first tokens → ∀ (done : List (Tree Fault)) (outer : List Frame),
      tokens.foldl State.step
          (.reading (if first then .firstItem else .separator) (.list done :: outer)) =
        State.place (.list (Frame.closeItems items done)) outer
  | .close, done, outer => by cases first <;> rfl
  | @Items.Spelled.item _ value rest tokens others hvalue hrest, done, outer => by
      -- The value is put on top of the items that are done, which the frame holds in reverse.
      rw [← List.append_assoc, List.foldl_append, foldl_step_separated first done outer hvalue,
        foldl_step_tree hvalue]
      exact foldl_step_items hrest (value :: done) outer

theorem foldl_step_members {first : Bool} {members : Members Fault} {tokens : List Token} :
    members.Spelled first tokens →
      ∀ (done : List (Except Fault String × Tree Fault)) (outer : List Frame),
      tokens.foldl State.step
          (.reading (if first then .firstName else .separator) (.record done :: outer)) =
        State.place (.record (Frame.closeMembers members done)) outer
  | .close, done, outer => by cases first <;> rfl
  | @Members.Spelled.member _ nameToken name value rest tokens others hname hvalue hrest, done,
      outer => by
      rw [List.foldl_append, foldl_step_separation, List.foldl_cons,
        step_of_nameOf first done outer hname, List.foldl_cons, List.foldl_append]
      have hvalues := foldl_step_tree hvalue (.member done name :: outer)
      have hothers := foldl_step_members hrest ((name, value) :: done) outer
      exact (congrArg (others.foldl State.step) hvalues).trans hothers

end

theorem ofTokens_of_spelled {tree : Tree Fault} {tokens : List Token}
    (htree : tree.Spelled tokens) : ofTokens tokens = ⟨tree, none⟩ := by
  rw [ofTokens, State.start, foldl_step_tree htree]
  rfl

/-- A text that spells the tokens of a well-formed value is read as that value. -/
theorem ofText_of_spelled {tree : Tree Fault} {tokens : List Token} {text : String}
    (htree : tree.Spelled tokens) (htext : Token.Spelled tokens text.toList) :
    ofText text = ⟨tree, none⟩ := by
  have hpunctuated : Token.Punctuated (tokens ++ []) := htree.punctuated .nil (by rintro _ ⟨⟩)
  rw [List.append_nil] at hpunctuated
  rw [ofText, Token.scan_of_spelled htext hpunctuated, ofTokens_of_spelled htree]

end Document

end UsageReport.Json
