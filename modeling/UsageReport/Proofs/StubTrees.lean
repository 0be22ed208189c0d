import UsageReport.Proofs.Accepted
import UsageReport.Proofs.Stubs

/-!
The value of a text that ends early. It is the value of the whole text up to the place where the
text ends, and there it has a fault that says so, inside every list and record still open.
-/

namespace UsageReport.Json

mutual

/-- What is left of a value where its text ends early. -/
inductive Tree.IsStub : Tree Fault → Tree Fault → Prop
  | whole {tree : Tree Fault} : Tree.IsStub tree tree
  | ended {fault : Fault} {tree : Tree Fault} (hfault : fault.wanted = .ended) :
      Tree.IsStub (.fault fault) tree
  | integer {stub value : Int} (hstub : stub ∈ Set.uIcc 0 value) :
      Tree.IsStub (.number (.integer stub)) (.number (.integer value))
  | list {stub items : Items Fault} (hitems : Items.IsStub stub items) :
      Tree.IsStub (.list stub) (.list items)
  | record {stub members : Members Fault} (hmembers : Members.IsStub stub members) :
      Tree.IsStub (.record stub) (.record members)

inductive Items.IsStub : Items Fault → Items Fault → Prop
  | cut {fault : Fault} {items : Items Fault} (hfault : fault.wanted = .ended) :
      Items.IsStub (.cut fault) items
  | item {stub value : Tree Fault} {stubs rest : Items Fault} (hvalue : Tree.IsStub stub value)
      (hrest : Items.IsStub stubs rest) : Items.IsStub (.item stub stubs) (.item value rest)

inductive Members.IsStub : Members Fault → Members Fault → Prop
  | cut {fault : Fault} {members : Members Fault} (hfault : fault.wanted = .ended) :
      Members.IsStub (.cut fault) members
  | member {name : Except Fault String} {stub value : Tree Fault} {stubs rest : Members Fault}
      (hvalue : Tree.IsStub stub value) (hrest : Members.IsStub stubs rest) :
      Members.IsStub (.member name stub stubs) (.member name value rest)

end

theorem Token.Cut.of_append {part first second : List Token} (hcut : Cut part (first ++ second)) :
    Cut part first ∨ ∃ rest, part = first ++ rest ∧ Cut rest second := by
  induction first generalizing part with
  | nil => exact .inr ⟨part, rfl, hcut⟩
  | cons token first ih =>
      cases hcut with
      | ended => exact .inl .ended
      | stub hstub => exact .inl (.stub hstub)
      | cons hcut =>
          rcases ih hcut with hinside | ⟨rest, rfl, hrest⟩
          · exact .inl (.cons hinside)
          · exact .inr ⟨rest, rfl, hrest⟩

/-- The comma between entries is there or not. -/
theorem Token.Cut.of_separation {first : Bool} {token : Token} {part rest : List Token}
    (hcut : Cut (token :: part) (separation first ++ rest)) :
    ∃ others, token :: part = separation first ++ others ∧ Cut others rest := by
  cases first with
  | true => exact ⟨token :: part, rfl, hcut⟩
  | false =>
      cases hcut with
      | stub hstub => cases hstub
      | cons hcut => exact ⟨part, rfl, hcut⟩

namespace Document

open Token (Cut)

theorem ne_closeList_of_cut {tree : Tree Fault} {token : Token} {tokens rest : List Token}
    (htree : tree.Spelled tokens) (hcut : Cut (token :: rest) tokens) : token ≠ .closeList := by
  rintro rfl
  cases hcut with
  | stub hstub => cases hstub
  | cons hcut =>
      cases htree with
      | scalar hscalar => cases hscalar

mutual

/-- From where a value may stand, a run over what a text has kept of the value's tokens leaves a
stub of the value, and cuts with it all that was open before. -/
theorem exists_stub_tree {tree : Tree Fault} {tokens : List Token} :
    tree.Spelled tokens → ∀ {part : List Token}, Cut part tokens → ∀ frames : List Frame,
      ∃ stub fault, fault.wanted = .ended ∧ Tree.IsStub stub tree ∧
        (part.foldl State.step (.reading .value frames)).finish = ⟨cutAll fault stub frames, none⟩
  | .scalar hscalar, part, hcut, frames => by
      cases hcut with
      | ended => exact ⟨_, _, rfl, .ended rfl, rfl⟩
      | cons hcut => cases hcut
      | stub hstub =>
          cases hstub with
          | null | flag | number | text => exact ⟨_, _, rfl, .ended rfl, rfl⟩
          | digits hstub =>
              cases hscalar
              refine ⟨_, .final .ended, rfl, .integer hstub, ?_⟩
              cases frames <;> rfl
  | .list hitems, part, hcut, frames => by
      cases hcut with
      | ended => exact ⟨_, _, rfl, .ended rfl, rfl⟩
      | stub hstub => cases hstub
      | cons hcut =>
          obtain ⟨stub, fault, hfault, hstub, hrun⟩ := exists_stub_items hitems hcut [] frames
          exact ⟨.list stub, fault, hfault, .list hstub, hrun⟩
  | .record hmembers, part, hcut, frames => by
      cases hcut with
      | ended => exact ⟨_, _, rfl, .ended rfl, rfl⟩
      | stub hstub => cases hstub
      | cons hcut =>
          obtain ⟨stub, fault, hfault, hstub, hrun⟩ := exists_stub_members hmembers hcut [] frames
          exact ⟨.record stub, fault, hfault, .record hstub, hrun⟩

theorem exists_stub_items {first : Bool} {items : Items Fault} {tokens : List Token} :
    items.Spelled first tokens → ∀ {part : List Token}, Cut part tokens →
      ∀ (done : List (Tree Fault)) (outer : List Frame),
      ∃ stub fault, fault.wanted = .ended ∧ Items.IsStub stub items ∧
        (part.foldl State.step
          (.reading (if first then .firstItem else .separator) (.list done :: outer))).finish =
          ⟨cutAll fault (.list (Frame.closeItems stub done)) outer, none⟩
  | _, [], _, done, outer => by
      refine ⟨.cut (.final .ended), .final .ended, rfl, .cut rfl, ?_⟩
      cases first <;> rfl
  | .close, token :: part, hcut, done, outer => by
      rcases hcut with _ | hstub | hcut
      · cases hstub
      · cases hcut
  | @Items.Spelled.item _ value rest tokens others hvalue hrest, token :: part, hcut, done,
      outer => by
      obtain ⟨values, hpart, hvalues⟩ := hcut.of_separation
      -- The text ends within the first value, or after it.
      rcases hvalues.of_append with hinside | ⟨remaining, rfl, hremaining⟩
      · obtain ⟨stub, fault, hfault, hstub, hrun⟩ :=
          exists_stub_tree hvalue hinside (.list done :: outer)
        refine ⟨.item stub (.cut fault), fault, hfault, .item hstub (.cut hfault), ?_⟩
        have hstart : (token :: part).foldl State.step
            (.reading (if first then .firstItem else .separator) (.list done :: outer)) =
              values.foldl State.step (.reading .value (.list done :: outer)) := by
          cases first with
          | false => rw [hpart]; rfl
          | true =>
              change token :: part = values at hpart
              subst hpart
              exact congrArg (part.foldl State.step)
                (step_firstItem _ (ne_closeList_of_cut hvalue hinside))
        rw [hstart, hrun]
        rfl
      · obtain ⟨stub, fault, hfault, hstub, hrun⟩ :=
          exists_stub_items hrest hremaining (value :: done) outer
        refine ⟨.item value stub, fault, hfault, .item .whole hstub, ?_⟩
        rw [hpart, ← List.append_assoc, List.foldl_append,
          foldl_step_separated first done outer hvalue, foldl_step_tree hvalue]
        exact hrun

theorem exists_stub_members {first : Bool} {members : Members Fault} {tokens : List Token} :
    members.Spelled first tokens → ∀ {part : List Token}, Cut part tokens →
      ∀ (done : List (Except Fault String × Tree Fault)) (outer : List Frame),
      ∃ stub fault, fault.wanted = .ended ∧ Members.IsStub stub members ∧
        (part.foldl State.step
          (.reading (if first then .firstName else .separator) (.record done :: outer))).finish =
          ⟨cutAll fault (.record (Frame.closeMembers stub done)) outer, none⟩
  | _, [], _, done, outer => by
      refine ⟨.cut (.final .ended), .final .ended, rfl, .cut rfl, ?_⟩
      cases first <;> rfl
  | .close, token :: part, hcut, done, outer => by
      rcases hcut with _ | hstub | hcut
      · cases hstub
      · cases hcut
  | @Members.Spelled.member _ nameToken name value rest tokens others hname hvalue hrest,
      token :: part, hcut, done, outer => by
      obtain ⟨named, hpart, hnamed⟩ := hcut.of_separation
      rw [hpart, List.foldl_append, foldl_step_separation]
      -- The text ends before the name, within it or after it, and there before the colon or later.
      rcases hnamed with _ | hstub | hnamed
      · refine ⟨.cut (.final .ended), .final .ended, rfl, .cut rfl, ?_⟩
        cases first <;> rfl
      · refine ⟨.cut (.final .ended), .final .ended, rfl, .cut rfl, ?_⟩
        cases hstub with
        | text => cases first <;> rfl
        | null | flag | number | digits => cases hname
      · rw [List.foldl_cons, step_of_nameOf first done outer hname]
        rcases hnamed with _ | hstub | hvalues
        · exact ⟨.member name (.fault (.final .ended)) (.cut (.final .ended)), .final .ended, rfl,
            .member (.ended rfl) (.cut rfl), rfl⟩
        · cases hstub
        · rcases hvalues.of_append with hinside | ⟨remaining, rfl, hremaining⟩
          · obtain ⟨stub, fault, hfault, hstub, hrun⟩ :=
              exists_stub_tree hvalue hinside (.member done name :: outer)
            exact ⟨.member name stub (.cut fault), fault, hfault, .member hstub (.cut hfault), hrun⟩
          · obtain ⟨stub, fault, hfault, hstub, hrun⟩ :=
              exists_stub_members hrest hremaining ((name, value) :: done) outer
            refine ⟨.member name value stub, fault, hfault, .member .whole hstub, ?_⟩
            change ((tokens ++ remaining).foldl State.step
              (.reading .value (.member done name :: outer))).finish = _
            rw [List.foldl_append, foldl_step_tree hvalue]
            exact hrun

end

end Document

mutual

/-- A value without faults all of whose numbers are integers. -/
def Tree.isPlain : Tree Fault → Bool
  | .null | .flag _ | .text _ | .number (.integer _) => true
  | .fault _ | .number (.real _) => false
  | .list items => items.isPlain
  | .record members => members.isPlain

def Items.isPlain : Items Fault → Bool
  | .close => true
  | .cut _ => false
  | .item value rest => value.isPlain && rest.isPlain

def Members.isPlain : Members Fault → Bool
  | .close => true
  | .cut _ | .member (.error _) _ _ => false
  | .member (.ok _) value rest => value.isPlain && rest.isPlain

end

theorem Token.isPlain_of_scalarOf {token : Token} {tree : Tree Fault}
    (hscalar : Document.scalarOf token = some tree) (hplain : tree.isPlain = true) :
    token.isPlain = true := by
  cases token with
  | null | flag _ => rfl
  | text value => cases value <;> cases hscalar <;> first | rfl | cases hplain
  | number value =>
      cases value with
      | none => cases hscalar; cases hplain
      | some value => cases value <;> cases hscalar <;> first | rfl | cases hplain
  | _ => cases hscalar

theorem Token.isPlain_separation (first : Bool) :
    ∀ token ∈ separation first, token.isPlain = true := by
  cases first <;> simp [separation, isPlain]

mutual

theorem Tree.Spelled.isPlain_tokens {tree : Tree Fault} {tokens : List Token} :
    tree.Spelled tokens → tree.isPlain = true → ∀ token ∈ tokens, token.isPlain = true
  | @Tree.Spelled.scalar token _ hscalar, hplain => by
      rw [List.forall_mem_singleton]
      exact Token.isPlain_of_scalarOf hscalar hplain
  | .list hitems, hplain =>
      List.forall_mem_cons.mpr ⟨rfl, Items.Spelled.isPlain_tokens hitems hplain⟩
  | .record hmembers, hplain =>
      List.forall_mem_cons.mpr ⟨rfl, Members.Spelled.isPlain_tokens hmembers hplain⟩

theorem Items.Spelled.isPlain_tokens {first : Bool} {items : Items Fault} {tokens : List Token} :
    items.Spelled first tokens → items.isPlain = true → ∀ token ∈ tokens, token.isPlain = true
  | .close, _ => by simp [Token.isPlain]
  | .item hvalue hrest, hplain => by
      simp only [Items.isPlain, Bool.and_eq_true] at hplain
      have hfirst := Tree.Spelled.isPlain_tokens hvalue hplain.1
      have hothers := Items.Spelled.isPlain_tokens hrest hplain.2
      rw [List.forall_mem_append, List.forall_mem_append]
      exact ⟨Token.isPlain_separation _, hfirst, hothers⟩

theorem Members.Spelled.isPlain_tokens {first : Bool} {members : Members Fault}
    {tokens : List Token} :
    members.Spelled first tokens → members.isPlain = true → ∀ token ∈ tokens, token.isPlain = true
  | .close, _ => by simp [Token.isPlain]
  | @Members.Spelled.member _ nameToken name value rest _ _ hname hvalue hrest, hplain => by
      have hnameToken : nameToken.isPlain = true := by
        cases nameToken with
        | text value => cases value <;> cases hname <;> first | rfl | cases hplain
        | _ => cases hname
      have hparts : value.isPlain = true ∧ rest.isPlain = true := by
        cases name with
        | error fault => cases hplain
        | ok name => rwa [Members.isPlain, Bool.and_eq_true] at hplain
      have hfirst := Tree.Spelled.isPlain_tokens hvalue hparts.1
      have hothers := Members.Spelled.isPlain_tokens hrest hparts.2
      rw [List.forall_mem_append, List.forall_mem_cons, List.forall_mem_cons,
        List.forall_mem_append]
      exact ⟨Token.isPlain_separation _, hnameToken, rfl, hfirst, hothers⟩

end

end UsageReport.Json
