import UsageReport.Proofs.Canonical
import UsageReport.Proofs.Grammar
import UsageReport.Proofs.Scanned

/-!
What the machine accepts. A run that ends with a complete value has read the tokens of that value,
one by one. Any other run ends with a value that is cut or with something after the value, and no
shape reads that.
-/

namespace UsageReport.Json

theorem Tree.Spelled.ne_nil {tree : Tree Fault} {tokens : List Token}
    (htree : tree.Spelled tokens) : tokens ≠ [] := by
  cases htree <;> exact List.cons_ne_nil _ _

namespace Document

variable {tokens : List Token} {root : Tree Fault}

theorem foldl_step_stopped (tokens : List Token) (document : Document) :
    tokens.foldl State.step (.stopped document) = .stopped document := by
  induction tokens with
  | nil => rfl
  | cons token tokens ih => exact ih

theorem not_complete_of_stopped {state : State} {document : Document}
    (hstate : state = .stopped document)
    (hrun : tokens.foldl State.step state = .complete root) : False := by
  rw [hstate, foldl_step_stopped] at hrun
  cases hrun

theorem step_firstItem {token : Token} (frames : List Frame) (htoken : token ≠ .closeList) :
    State.step (.reading .firstItem frames) token = State.step (.reading .value frames) token := by
  cases token <;> first | rfl | contradiction

theorem step_firstName {token : Token} (frames : List Frame) (htoken : token ≠ .closeRecord) :
    State.step (.reading .firstName frames) token = State.takeName frames token := by
  cases token <;> first | rfl | contradiction

theorem takeValue_stopped {token : Token} (frames : List Frame) (hlist : token ≠ .openList)
    (hrecord : token ≠ .openRecord) (hscalar : scalarOf token = none) :
    ∃ document, State.takeValue frames token = .stopped document := by
  unfold State.takeValue
  split
  · exact absurd rfl hlist
  · exact absurd rfl hrecord
  · rw [hscalar]
    exact ⟨_, rfl⟩

theorem takeSeparator_list_stopped {token : Token} (items : List (Tree Fault))
    (outer : List Frame) (hcomma : token ≠ .comma) (hclose : token ≠ .closeList) :
    ∃ document, State.takeSeparator (.list items :: outer) token = .stopped document := by
  cases token <;> first | exact ⟨_, rfl⟩ | contradiction

theorem takeSeparator_record_stopped {token : Token}
    (members : List (Except Fault String × Tree Fault)) (outer : List Frame)
    (hcomma : token ≠ .comma) (hclose : token ≠ .closeRecord) :
    ∃ document, State.takeSeparator (.record members :: outer) token = .stopped document := by
  cases token <;> first | exact ⟨_, rfl⟩ | contradiction

theorem takeName_stopped {token : Token} (frames : List Frame) (hname : nameOf token = none) :
    ∃ document, State.takeName frames token = .stopped document := by
  unfold State.takeName
  rw [hname]
  split
  · contradiction
  · exact ⟨_, rfl⟩

/-- Where items are not at their end, a value comes next, after a comma unless it is the first. -/
theorem exists_separated {token : Token} {first : Bool} {done : List (Tree Fault)}
    {outer : List Frame} (hclose : token ≠ .closeList)
    (hrun : (token :: tokens).foldl State.step
      (.reading (if first then .firstItem else .separator) (.list done :: outer)) =
        .complete root) :
    ∃ values, token :: tokens = Token.separation first ++ values ∧
      values.foldl State.step (.reading .value (.list done :: outer)) = .complete root := by
  cases first with
  | true =>
      refine ⟨token :: tokens, rfl, ?_⟩
      rw [List.foldl_cons, ← step_firstItem _ hclose]
      exact hrun
  | false =>
      by_cases hcomma : token = .comma
      · subst hcomma
        exact ⟨tokens, rfl, hrun⟩
      · obtain ⟨document, hstop⟩ := takeSeparator_list_stopped done outer hcomma hclose
        exact (not_complete_of_stopped hstop hrun).elim

theorem exists_nameToken {token : Token} {first : Bool}
    {done : List (Except Fault String × Tree Fault)} {outer : List Frame}
    (hclose : token ≠ .closeRecord)
    (hrun : (token :: tokens).foldl State.step
      (.reading (if first then .firstName else .separator) (.record done :: outer)) =
        .complete root) :
    ∃ nameToken rest, token :: tokens = Token.separation first ++ nameToken :: rest ∧
      rest.foldl State.step (State.takeName (.record done :: outer) nameToken) =
        .complete root := by
  cases first with
  | true =>
      refine ⟨token, tokens, rfl, ?_⟩
      rw [← step_firstName _ hclose]
      exact hrun
  | false =>
      by_cases hcomma : token = .comma
      · subst hcomma
        cases tokens with
        | nil => cases hrun
        | cons nameToken rest => exact ⟨nameToken, rest, rfl, hrun⟩
      · obtain ⟨document, hstop⟩ := takeSeparator_record_stopped done outer hcomma hclose
        exact (not_complete_of_stopped hstop hrun).elim

/-- After a name come a colon and the value. -/
theorem exists_named {nameToken : Token} {done : List (Except Fault String × Tree Fault)}
    {outer : List Frame}
    (hrun : tokens.foldl State.step (State.takeName (.record done :: outer) nameToken) =
      .complete root) :
    ∃ name values, tokens = .colon :: values ∧ nameOf nameToken = some name ∧
      values.foldl State.step (.reading .value (.member done name :: outer)) = .complete root := by
  cases hname : nameOf nameToken with
  | none =>
      obtain ⟨document, hstop⟩ := takeName_stopped (.record done :: outer) hname
      exact (not_complete_of_stopped hstop hrun).elim
  | some name =>
      simp only [State.takeName, hname] at hrun
      cases tokens with
      | nil => cases hrun
      | cons token values =>
          by_cases hcolon : token = .colon
          · subst hcolon
            exact ⟨name, values, rfl, rfl, hrun⟩
          · obtain ⟨document, hstop⟩ : ∃ document,
                State.step (.reading .colon (.member done name :: outer)) token =
                  .stopped document := by
              cases token <;> first | exact ⟨_, rfl⟩ | contradiction
            exact (not_complete_of_stopped hstop hrun).elim

theorem length_le_of_separation {token : Token} {first : Bool} {rest : List Token}
    (hsplit : token :: tokens = Token.separation first ++ rest) :
    rest.length ≤ tokens.length + 1 := by
  have hlength := congrArg List.length hsplit
  rw [List.length_cons, List.length_append] at hlength
  omega

mutual

/-- From where a value may stand, a run that comes to a complete value has read one there. -/
theorem exists_tree : ∀ (tokens : List Token) (frames : List Frame),
    tokens.foldl State.step (.reading .value frames) = .complete root →
    ∃ tree used rest, tokens = used ++ rest ∧ Tree.Spelled tree used ∧
      rest.foldl State.step (State.place tree frames) = .complete root
  | [], _, hrun => by cases hrun
  | token :: tokens, frames, hrun => by
      cases hscalar : scalarOf token with
      | some tree =>
          refine ⟨tree, [token], tokens, rfl, .scalar hscalar, ?_⟩
          rw [← takeValue_of_scalarOf frames hscalar]
          exact hrun
      | none =>
          by_cases hlist : token = .openList
          · subst hlist
            obtain ⟨items, used, rest, hsplit, hitems, hrest⟩ := exists_items tokens true hrun
            exact ⟨.list items, .openList :: used, rest, by rw [hsplit]; rfl, .list hitems, hrest⟩
          by_cases hrecord : token = .openRecord
          · subst hrecord
            obtain ⟨members, used, rest, hsplit, hmembers, hrest⟩ :=
              exists_members tokens true hrun
            exact ⟨.record members, .openRecord :: used, rest, by rw [hsplit]; rfl,
              .record hmembers, hrest⟩
          · obtain ⟨document, hstop⟩ := takeValue_stopped frames hlist hrecord hscalar
            exact (not_complete_of_stopped hstop hrun).elim
termination_by tokens => 2 * tokens.length

theorem exists_items : ∀ (tokens : List Token) (first : Bool) {done : List (Tree Fault)}
    {outer : List Frame},
    tokens.foldl State.step
      (.reading (if first then .firstItem else .separator) (.list done :: outer)) =
        .complete root →
    ∃ items used rest, tokens = used ++ rest ∧ Items.Spelled first items used ∧
      rest.foldl State.step (State.place (.list (Frame.closeItems items done)) outer) =
        .complete root
  | [], first, _, _, hrun => by cases first <;> cases hrun
  | token :: tokens, first, done, outer, hrun => by
      by_cases hclose : token = .closeList
      · subst hclose
        refine ⟨.close, [.closeList], tokens, rfl, .close, ?_⟩
        cases first <;> exact hrun
      · obtain ⟨values, hsplit, hvalues⟩ := exists_separated hclose hrun
        have hfewer := length_le_of_separation hsplit
        obtain ⟨tree, used, others, hused, htree, hothers⟩ := exists_tree values _ hvalues
        have hless : others.length < values.length := by
          rw [hused, List.length_append]
          exact Nat.lt_add_of_pos_left (List.length_pos_iff.mpr htree.ne_nil)
        obtain ⟨items, more, rest, hmore, hitems, hrest⟩ := exists_items others false hothers
        refine ⟨.item tree items, _, rest, ?_, .item htree hitems, hrest⟩
        rw [hsplit, hused, hmore]
        simp only [List.append_assoc]
termination_by tokens => 2 * tokens.length + 1

theorem exists_members : ∀ (tokens : List Token) (first : Bool)
    {done : List (Except Fault String × Tree Fault)} {outer : List Frame},
    tokens.foldl State.step
      (.reading (if first then .firstName else .separator) (.record done :: outer)) =
        .complete root →
    ∃ members used rest, tokens = used ++ rest ∧ Members.Spelled first members used ∧
      rest.foldl State.step (State.place (.record (Frame.closeMembers members done)) outer) =
        .complete root
  | [], first, _, _, hrun => by cases first <;> cases hrun
  | token :: tokens, first, done, outer, hrun => by
      by_cases hclose : token = .closeRecord
      · subst hclose
        refine ⟨.close, [.closeRecord], tokens, rfl, .close, ?_⟩
        cases first <;> exact hrun
      · obtain ⟨nameToken, named, hsplit, hnamed⟩ := exists_nameToken hclose hrun
        obtain ⟨name, values, rfl, hname, hvalues⟩ := exists_named hnamed
        have hfewer : values.length + 2 ≤ tokens.length + 1 := length_le_of_separation hsplit
        obtain ⟨tree, used, others, hused, htree, hothers⟩ := exists_tree values _ hvalues
        have hless : others.length < values.length := by
          rw [hused, List.length_append]
          exact Nat.lt_add_of_pos_left (List.length_pos_iff.mpr htree.ne_nil)
        obtain ⟨members, more, rest, hmore, hmembers, hrest⟩ := exists_members others false hothers
        refine ⟨.member name tree members, _, rest, ?_, .member hname htree hmembers, hrest⟩
        rw [hsplit, hused, hmore]
        simp only [List.append_assoc, List.cons_append]
termination_by tokens => 2 * tokens.length + 1

end

/-- A run that ends with a complete value has read the tokens of that value and no others. -/
theorem spelled_of_complete (hrun : tokens.foldl State.step .start = .complete root) :
    root.Spelled tokens := by
  obtain ⟨tree, used, rest, rfl, htree, hrest⟩ := exists_tree tokens [] hrun
  cases rest with
  | nil =>
      cases hrest
      rwa [List.append_nil]
  | cons token rest => exact (not_complete_of_stopped rfl hrest).elim

theorem step_of_isBroken {token : Token} (htoken : token.isBroken = true) (state : State) :
    ∃ document, state.step token = .stopped document := by
  cases state with
  | stopped document => exact ⟨document, rfl⟩
  | complete root => exact ⟨_, rfl⟩
  | reading position frames =>
      cases token <;> cases htoken
      all_goals
        cases position <;>
          first | exact ⟨_, rfl⟩ | exact takeName_stopped frames rfl

theorem isBroken_of_complete {state : State}
    (hrun : tokens.foldl State.step state = .complete root) :
    ∀ token ∈ tokens, token.isBroken = false := by
  induction tokens generalizing state with
  | nil => exact fun _ htoken => nomatch htoken
  | cons token tokens ih =>
      refine List.forall_mem_cons.mpr ⟨?_, ih hrun⟩
      cases hbroken : token.isBroken with
      | false => rfl
      | true =>
          obtain ⟨document, hstop⟩ := step_of_isBroken hbroken state
          exact (not_complete_of_stopped hstop hrun).elim

end Document

/-- Whether no bracket closes the items. -/
def Items.isCut : Items Fault → Bool
  | .close => false
  | .cut _ => true
  | .item _ rest => rest.isCut

def Members.isCut : Members Fault → Bool
  | .close => false
  | .cut _ => true
  | .member _ _ rest => rest.isCut

/-- Whether the text has ended, or gone wrong, before the value has. -/
def Tree.isCut : Tree Fault → Bool
  | .fault _ => true
  | .list items => items.isCut
  | .record members => members.isCut
  | .null | .flag _ | .number _ | .text _ => false

namespace Document

theorem isCut_closeItems (ending : Items Fault) (items : List (Tree Fault)) :
    (Frame.closeItems ending items).isCut = ending.isCut := by
  induction items generalizing ending with
  | nil => rfl
  | cons value items ih => exact ih (.item value ending)

theorem isCut_closeMembers (ending : Members Fault)
    (members : List (Except Fault String × Tree Fault)) :
    (Frame.closeMembers ending members).isCut = ending.isCut := by
  induction members generalizing ending with
  | nil => rfl
  | cons entry members ih => exact ih (.member entry.1 entry.2 ending)

theorem isCut_cut (fault : Fault) (frame : Frame) : (frame.cut fault).isCut = true := by
  cases frame with
  | list items => exact isCut_closeItems _ items
  | record members | member members _ => exact isCut_closeMembers _ members

theorem isCut_cutAll {fault : Fault} {value : Tree Fault} (hvalue : value.isCut = true)
    (frames : List Frame) : (cutAll fault value frames).isCut = true := by
  induction frames generalizing value with
  | nil => exact hvalue
  | cons frame outer ih => exact ih (isCut_cut fault _)

theorem isCut_stopInside (fault : Fault) (frames : List Frame) :
    (stopInside fault frames).root.isCut = true := by
  cases frames with
  | nil => rfl
  | cons frame outer => exact isCut_cutAll (isCut_cut fault frame) outer

theorem isCut_stopAtEnd (position : Position) (frames : List Frame) :
    (stopAtEnd position frames).root.isCut = true := by
  cases position <;> first | exact isCut_cutAll rfl frames | exact isCut_stopInside _ frames

/-- No reader takes the value of the document for the whole text. -/
def Refused (document : Document) : Prop :=
  document.root.isCut = true ∨ document.trailing ≠ none

/-- Where the machine has stopped, it has done so for a reason. -/
def State.Sound : State → Prop
  | .stopped document => document.Refused
  | .reading _ _ | .complete _ => True

theorem sound_place (value : Tree Fault) (frames : List Frame) :
    (State.place value frames).Sound := by
  cases frames <;> trivial

theorem sound_takeValue (frames : List Frame) (token : Token) :
    (State.takeValue frames token).Sound := by
  unfold State.takeValue
  split
  · trivial
  · trivial
  · split
    · exact sound_place _ frames
    · exact .inl (isCut_cutAll rfl frames)

theorem sound_takeName (frames : List Frame) (token : Token) :
    (State.takeName frames token).Sound := by
  unfold State.takeName
  split
  · trivial
  · exact .inl (isCut_stopInside _ _)

theorem sound_takeSeparator (frames : List Frame) (token : Token) :
    (State.takeSeparator frames token).Sound := by
  unfold State.takeSeparator
  split
  · trivial
  · trivial
  · exact sound_place _ _
  · exact sound_place _ _
  · exact .inl (isCut_stopInside _ frames)

theorem State.Sound.step {state : State} (hstate : state.Sound) (token : Token) :
    (state.step token).Sound := by
  unfold State.step
  split
  · exact hstate
  · exact .inr nofun
  · split
    · exact sound_takeValue _ _
    · exact sound_takeSeparator _ _
    · exact sound_takeValue _ _
    · exact sound_takeSeparator _ _
    · exact sound_takeName _ _
    · exact sound_takeName _ _
    · trivial
    · exact .inl (isCut_cutAll rfl _)
    · exact sound_takeSeparator _ _

theorem State.Sound.foldl {state : State} (hstate : state.Sound) (tokens : List Token) :
    (tokens.foldl State.step state).Sound := by
  induction tokens generalizing state with
  | nil => exact hstate
  | cons token tokens ih => exact ih (hstate.step token)

/-- If the whole text may be taken for the value, the machine has completed it. -/
theorem complete_of_not_refused (htokens : ¬ (ofTokens tokens).Refused) :
    tokens.foldl State.step .start = .complete (ofTokens tokens).root := by
  have hstart : State.start.Sound := trivial
  have hsound := hstart.foldl tokens
  unfold ofTokens at htokens ⊢
  cases hrun : tokens.foldl State.step .start with
  | complete root => rfl
  | stopped document =>
      rw [hrun] at hsound htokens
      exact absurd hsound htokens
  | reading position frames =>
      rw [hrun] at htokens
      exact absurd (.inl (isCut_stopAtEnd position frames)) htokens

end Document

section Reading

variable {α ρ : Type}

theorem Items.read_of_isCut {read : Tree Fault → Except Failure α} {value : List α} :
    ∀ {items : Items Fault}, items.isCut = true → items.read read ≠ .ok value
  | .cut _, _ => nofun
  | .item tree rest, hcut => by
      intro hread
      have hrest : rest.isCut = true := hcut
      simp only [Items.read] at hread
      split at hread
      · cases hread
      · obtain ⟨held, hheld, -⟩ := map_eq_ok_iff.mp hread
        exact read_of_isCut hrest hheld

theorem Items.readFields_of_isCut {strict : Bool} {result : ρ} :
    ∀ {items : Items Fault} {slots : List (Slot ρ)} {record : ρ}, items.isCut = true →
      items.readFields strict record slots ≠ .ok result
  | .cut _, [], _, _ | .cut _, _ :: _, _, _ => nofun
  | .item _ _, [], _, _ => nofun
  | .item tree rest, slot :: slots, record, hcut => by
      intro hread
      have hrest : rest.isCut = true := hcut
      simp only [Items.readFields] at hread
      split at hread
      · cases hread
      · exact readFields_of_isCut hrest hread

theorem Members.readFields_of_isCut {strict : Bool} {slots : List (Slot ρ)} {result : ρ} :
    ∀ {members : Members Fault} {seen : List String} {record : ρ}, members.isCut = true →
      members.readFields strict slots seen record ≠ .ok result
  | .cut _, _, _, _ => nofun
  | .member (.error _) _ _, _, _, _ => nofun
  | .member (.ok name) tree rest, seen, record, hcut => by
      intro hread
      have hrest : rest.isCut = true := hcut
      simp only [Members.readFields] at hread
      split at hread
      · split at hread
        · cases hread
        · exact readFields_of_isCut hrest hread
      · split at hread
        · cases hread
        · split at hread
          · cases hread
          · exact readFields_of_isCut hrest hread

theorem Tree.readRecord_of_isCut {strict : Bool} {blank result : ρ} {slots : List (Slot ρ)}
    {tree : Tree Fault} (hcut : tree.isCut = true) :
    tree.readRecord strict blank slots ≠ .ok result := by
  cases tree with
  | fault => nofun
  | list items => exact Items.readFields_of_isCut hcut
  | record members => exact Members.readFields_of_isCut hcut
  | null | flag _ | number _ | text _ => cases hcut

/-- A value that is cut is not read, whatever the shape. -/
theorem Shape.read_of_isCut : ∀ {α : Type} {shape : Shape α} {tree : Tree Fault} {value : α},
    tree.isCut = true → shape.read tree ≠ .ok value
  | _, .text, tree, _, hcut | _, .flag, tree, _, hcut | _, .real, tree, _, hcut => by
      simp only [Shape.read]
      intro hread
      cases tree with
      | fault _ | list _ | record _ => cases hread
      | null | flag _ | number _ | text _ => cases hcut
  | _, .natural _, tree, _, hcut | _, .kind _ _, tree, _, hcut => by
      simp only [Shape.read]
      intro hread
      obtain ⟨held, hheld, -⟩ := map_eq_ok_iff.mp hread
      obtain ⟨rfl, -⟩ := Tree.readInteger_eq_ok_iff.mp hheld
      cases hcut
  | _, .integer _ _, tree, _, hcut => by
      simp only [Shape.read]
      intro hread
      obtain ⟨rfl, -⟩ := Tree.readInteger_eq_ok_iff.mp hread
      cases hcut
  | _, .list item, tree, value, hcut => by
      simp only [Shape.read]
      intro hread
      obtain ⟨items, rfl, hitems⟩ := Tree.readList_eq_ok_iff.mp hread
      exact Items.read_of_isCut hcut hitems
  | _, .optional present, tree, value, hcut => by
      simp only [Shape.read]
      intro hread
      rcases Tree.readOptional_eq_ok_iff.mp hread with ⟨rfl, -⟩ | ⟨-, held, hheld, -⟩
      · cases hcut
      · exact Shape.read_of_isCut hcut hheld
  | _, .record strict blank fields, tree, value, hcut => by
      simp only [Shape.read]
      exact Tree.readRecord_of_isCut hcut

end Reading

namespace Document

/-- Only a number alone is complete with a number. -/
theorem scalarOf_of_step_number {state : State} {root : Tree Fault} {number : Option Number}
    (hstep : state.step (.number number) = .complete root) :
    scalarOf (.number number) = some root := by
  have hvalue {frames : List Frame}
      (htake : State.takeValue frames (.number number) = .complete root) :
      scalarOf (.number number) = some root := by
    cases frames with
    | nil => cases number <;> cases htake <;> rfl
    | cons frame outer => cases number <;> cases htake
  cases state with
  | stopped | complete => cases hstep
  | reading position frames =>
      cases position with
      | value | firstItem => exact hvalue hstep
      | firstName | name =>
          obtain ⟨document, hstop⟩ := @takeName_stopped (.number number) frames rfl
          exact absurd (hstop.symm.trans hstep) nofun
      | colon | separator => cases hstep

theorem isNumber_of_complete {tokens : List Token} {state : State} {root : Tree Fault}
    (hrun : tokens.foldl State.step state = .complete root)
    (hroot : ∀ token, scalarOf token ≠ some root) :
    ∀ token ∈ tokens.getLast?, token.isNumber = false := by
  intro token htoken
  obtain ⟨before, rfl⟩ := List.getLast?_eq_some_iff.mp htoken
  rw [List.foldl_append] at hrun
  cases token with
  | number number => exact absurd (scalarOf_of_step_number hrun) (hroot _)
  | _ => rfl

end Document

theorem Tree.scalarOf_ne_of_readRecord {ρ : Type} {strict : Bool} {blank result : ρ}
    {slots : List (Slot ρ)} {tree : Tree Fault}
    (hread : tree.readRecord strict blank slots = .ok result) (token : Token) :
    Document.scalarOf token ≠ some tree := by
  intro hscalar
  cases tree with
  | list _ | record _ =>
      unfold Document.scalarOf at hscalar
      split at hscalar <;> cases hscalar
  | null | flag _ | number _ | text _ | fault _ => cases hread

namespace Shape

variable {α ρ : Type} {text rest : String}

theorem complete_of_decode {shape : Shape α} {value : α} (hdecode : shape.decode text = .ok value) :
    (Token.scan text.toList).foldl Document.State.step .start =
      .complete (Document.ofText text).root := by
  apply Document.complete_of_not_refused
  change ¬ (Document.ofText text).Refused
  have hread := read_of_decode hdecode
  rintro (hcut | htrailing)
  · exact read_of_isCut hcut hread
  · cases hfound : (Document.ofText text).trailing with
    | none => exact htrailing hfound
    | some failure =>
        simp only [decode, hread, hfound] at hdecode
        cases hdecode

/-- After the record, nothing but blanks may follow. -/
theorem decode_append {strict : Bool} {blank record : ρ} {fields : Fields ρ}
    (hdecode : (Shape.record strict blank fields).decode text = .ok record)
    (hrest : ∃ c ∈ rest.toList, Token.isSpace c = false) :
    (Shape.record strict blank fields).decode (text ++ rest) = .error .malformed := by
  have hrun := complete_of_decode hdecode
  have hread := read_of_decode hdecode
  have hroot : ∀ token, Document.scalarOf token ≠ some (Document.ofText text).root := by
    simp only [Shape.read] at hread
    exact Tree.scalarOf_ne_of_readRecord hread
  have hscan := Token.scan_append (Document.isBroken_of_complete hrun)
    (Document.isNumber_of_complete hrun hroot) rest.toList
  have hdocument : Document.ofText (text ++ rest) =
      ⟨(Document.ofText text).root, some .malformed⟩ := by
    obtain ⟨token, tokens, hmore⟩ := List.exists_cons_of_ne_nil (Token.scan_ne_nil hrest)
    rw [Document.ofText, String.toList_append, hscan, Document.ofTokens, List.foldl_append, hrun,
      hmore]
    exact congrArg Document.State.finish (Document.foldl_step_stopped tokens _)
  simp only [decode, hdocument, hread]

end Shape

end UsageReport.Json
