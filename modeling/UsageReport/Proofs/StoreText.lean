import UsageReport.Proofs.Loaded
import UsageReport.Proofs.RoundTrip

/-!
The texts of store records. A canonical record is read from every text that it may be written as, and
only canonical records are read, so that each of them is read from its own encoding.
-/

namespace UsageReport.Store

open Json

attribute [local simp] Shape.Faithful Fields.Faithful Fields.names Shape.Blank Fields.Blank
  Fields.rebuild Shape.word Shape.halfWord Shape.signedWord Text.greatestWord

theorem Identity.faithful_shape : Identity.shape.Faithful := by
  simp [shape]

theorem DockerHub.faithful_shape : DockerHub.shape.Faithful := by
  simp [shape]

theorem Schedule.faithful_shape : Schedule.shape.Faithful := by
  simp [shape, Kind.shape]
  rfl

theorem DockerSnapshot.faithful_shape : DockerSnapshot.shape.Faithful := by
  simp [shape]

theorem Endpoint.faithful_shape : Endpoint.shape.Faithful := by
  simp [shape, Kind.shape, DockerSnapshot.faithful_shape]
  rfl

theorem EndpointGroup.faithful_shape : EndpointGroup.shape.Faithful := by
  simp [shape]

theorem Registry.faithful_shape : Registry.shape.Faithful := by
  simp [shape, Kind.shape]
  rfl

theorem ResourceControl.faithful_shape : ResourceControl.shape.Faithful := by
  simp [shape, Kind.shape]
  rfl

theorem Label.faithful_shape : Label.shape.Faithful := by
  simp [shape]

theorem Settings.faithful_shape : Settings.shape.Faithful := by
  simp [shape, Kind.shape, Label.faithful_shape]
  rfl

theorem Stack.faithful_shape : Stack.shape.Faithful := by
  simp [shape, Kind.shape]
  rfl

theorem Tag.faithful_shape : Tag.shape.Faithful := by
  simp [shape]

theorem Team.faithful_shape : Team.shape.Faithful := by
  simp [shape]

theorem TeamMembership.faithful_shape : TeamMembership.shape.Faithful := by
  simp [shape, Kind.shape]
  rfl

theorem faithful_shape : shape.Faithful := by
  simp [shape, Identity.faithful_shape, DockerHub.faithful_shape, Schedule.faithful_shape,
    Endpoint.faithful_shape, EndpointGroup.faithful_shape, Registry.faithful_shape,
    ResourceControl.faithful_shape, Settings.faithful_shape, Stack.faithful_shape,
    Tag.faithful_shape, Team.faithful_shape, TeamMembership.faithful_shape]
  exact ⟨rfl, rfl, rfl⟩

/-- The shapes of the records of a store and of the store itself. -/
inductive RecordShape : {α : Type} → Shape α → Prop
  | identity : RecordShape Identity.shape
  | dockerHub : RecordShape DockerHub.shape
  | schedule : RecordShape Schedule.shape
  | dockerSnapshot : RecordShape DockerSnapshot.shape
  | endpoint : RecordShape Endpoint.shape
  | endpointGroup : RecordShape EndpointGroup.shape
  | registry : RecordShape Registry.shape
  | resourceControl : RecordShape ResourceControl.shape
  | label : RecordShape Label.shape
  | settings : RecordShape Settings.shape
  | stack : RecordShape Stack.shape
  | tag : RecordShape Tag.shape
  | team : RecordShape Team.shape
  | teamMembership : RecordShape TeamMembership.shape
  | store : RecordShape Store.shape

namespace RecordShape

variable {α : Type} {shape : Shape α}

theorem lawful (hshape : RecordShape shape) : shape.Lawful := by
  cases hshape with
  | identity => exact Identity.lawful_shape
  | dockerHub => exact DockerHub.lawful_shape
  | schedule => exact Schedule.lawful_shape
  | dockerSnapshot => exact DockerSnapshot.lawful_shape
  | endpoint => exact Endpoint.lawful_shape
  | endpointGroup => exact EndpointGroup.lawful_shape
  | registry => exact Registry.lawful_shape
  | resourceControl => exact ResourceControl.lawful_shape
  | label => exact Label.lawful_shape
  | settings => exact Settings.lawful_shape
  | stack => exact Stack.lawful_shape
  | tag => exact Tag.lawful_shape
  | team => exact Team.lawful_shape
  | teamMembership => exact TeamMembership.lawful_shape
  | store => exact lawful_shape

theorem faithful (hshape : RecordShape shape) : shape.Faithful := by
  cases hshape with
  | identity => exact Identity.faithful_shape
  | dockerHub => exact DockerHub.faithful_shape
  | schedule => exact Schedule.faithful_shape
  | dockerSnapshot => exact DockerSnapshot.faithful_shape
  | endpoint => exact Endpoint.faithful_shape
  | endpointGroup => exact EndpointGroup.faithful_shape
  | registry => exact Registry.faithful_shape
  | resourceControl => exact ResourceControl.faithful_shape
  | label => exact Label.faithful_shape
  | settings => exact Settings.faithful_shape
  | stack => exact Stack.faithful_shape
  | tag => exact Tag.faithful_shape
  | team => exact Team.faithful_shape
  | teamMembership => exact TeamMembership.faithful_shape
  | store => exact faithful_shape

theorem hasReal (hshape : RecordShape shape) : shape.hasReal = false := by
  cases hshape <;> rfl

end RecordShape

/-- A canonical record is read from whatever it may be written as: fields in any order, some of
them left out, unknown ones added, blanks anywhere. What is read is canonical, and is read again
from its encoding. -/
theorem decode_of_recordShape {α : Type} {shape : Shape α} (hshape : RecordShape shape) :
    (∀ value text, shape.Canonical value → shape.WrittenAs value text →
      shape.decode text = .ok value) ∧
    (∀ value text, shape.decode text = .ok value →
      shape.Canonical value ∧
      ∀ layout, shape.WrittenAs value (shape.encode layout value) ∧
        shape.decode (shape.encode layout value) = .ok value) ∧
    ∀ store text, ofContent (.ok (.text text)) = .ok store ↔ Store.shape.decode text = .ok store := by
  refine ⟨fun value text hcanonical hwritten => ?_, fun value text hdecode => ?_,
    fun store text => ?_⟩
  · exact Shape.decode_of_writtenAs hshape.lawful hshape.faithful hcanonical hwritten
  · have hcanonical := Shape.canonical_of_read hshape.lawful (Shape.read_of_decode hdecode)
    have hrereads := Shape.rereads_self hshape.hasReal value
    exact ⟨hcanonical, fun layout =>
      ⟨Shape.writtenAs_encode hshape.faithful hcanonical hrereads layout,
        Shape.decode_encode hshape.lawful hshape.faithful hcanonical hrereads layout⟩⟩
  · refine ⟨decode_of_ofText, fun hdecode => ?_⟩
    rw [ofContent, ofText, hdecode]

/-- A registry with its fields out of order, one of them left out and an unknown one added. -/
def shuffledText : String :=
  "\x7b\"Seen\":[1e999,\"\\udc00\"],\n \"Type\":2,\"Name\":\"\\u0061\", \"Id\":7\x7d"

def shuffledRegistry : Registry where
  id := 7
  name := "a"
  kind := .azure

/-- A number beyond all bounds and a lone surrogate: nobody can read them, but they are skipped. -/
def unreadable : Json.Tree Fault := .list (Items.ofList [.fault .skippable, .fault .skippable])

def unreadableTokens : List Token :=
  [.openList, .number none, .comma, .text none, .closeList]

theorem spelled_unreadable : unreadable.Spelled unreadableTokens := by
  have hnumber : Json.Tree.Spelled (.fault .skippable) [.number none] := .scalar rfl
  have htext : Json.Tree.Spelled (.fault .skippable) [.text none] := .scalar rfl
  exact .list (.item hnumber (.item htext .close))

def shuffledTree : Json.Tree Fault :=
  .record <| Members.ofList
    [("Seen", unreadable), ("Type", .number (.integer 2)), ("Name", .text "a"),
      ("Id", .number (.integer 7))]

theorem writes_shuffledTree : Registry.shape.Writes shuffledRegistry shuffledTree := by
  have hothers : ∀ entry ∈ [("Seen", unreadable)],
      entry.1 ∉ ["Id", "Name", "Type", "URL"] ∧ entry.2.WellFormed := by
    rintro entry hentry
    obtain rfl := List.mem_singleton.mp hentry
    exact ⟨by decide, _, spelled_unreadable⟩
  refine Shape.writes_record (Fields.writes_kept rfl (Fields.writes_kept rfl
    (Fields.writes_kept rfl (Fields.writes_omitted rfl Fields.writes_none)))) hothers ?_
  exact (List.reverse_perm [("Id", Json.Tree.number (.integer 7)), ("Name", .text "a"),
    ("Type", .number (.integer 2)), ("Seen", unreadable)])

def shuffledTokens : List Token :=
  .openRecord :: .text (some "Seen") :: .colon :: (unreadableTokens ++
    [.comma, .text (some "Type"), .colon, .number (some (.integer 2)), .comma,
      .text (some "Name"), .colon, .text (some "a"), .comma, .text (some "Id"), .colon,
      .number (some (.integer 7)), .closeRecord])

theorem spelled_shuffledTree : shuffledTree.Spelled shuffledTokens := by
  have hkind : Json.Tree.Spelled (.number (.integer 2)) [.number (some (.integer 2))] := .scalar rfl
  have hname : Json.Tree.Spelled (.text "a") [.text (some "a")] := .scalar rfl
  have hid : Json.Tree.Spelled (.number (.integer 7)) [.number (some (.integer 7))] := .scalar rfl
  exact .record (.member (nameOf_text "Seen") spelled_unreadable
    (.member (nameOf_text "Type") hkind (.member (nameOf_text "Name") hname
      (.member (nameOf_text "Id") hid .close))))

theorem spelling_beyondBounds : Token.Spelling (.number none) ['1', 'e', '9', '9', '9'] := by
  let numeral : Numeral := ⟨false, ['1'], none, some (false, ['9', '9', '9'])⟩
  have hwhole : Numeral.IsWhole numeral.whole :=
    ⟨⟨List.cons_ne_nil _ _, List.all_eq_true.mp rfl⟩, fun hzero => by cases hzero⟩
  have hfraction : Numeral.FractionSpelling numeral.fraction [] := .none
  have hexponent : Numeral.ExponentSpelling numeral.exponent ['e', '9', '9', '9'] :=
    .some (.inl rfl) .bare ⟨List.cons_ne_nil _ _, List.all_eq_true.mp rfl⟩
  have hnone : numeral.number? = none := by decide +kernel
  exact hnone ▸ .number ⟨.intro hwhole hfraction hexponent⟩

theorem spelling_loneSurrogate :
    Token.Spelling (.text none) ['"', '\\', 'u', 'd', 'c', '0', '0', '"'] := by
  have hunit : Quotation.unit? 'd' 'c' '0' '0' = some 0xdc00 := rfl
  exact .text (.unit hunit .nil)

theorem spelling_escapedName :
    Token.Spelling (.text (some "a")) ['"', '\\', 'u', '0', '0', '6', '1', '"'] := by
  have hunit : Quotation.unit? '0' '0' '6' '1' = some 0x61 := rfl
  exact .text (.unit hunit .nil)

theorem spelled_shuffledText : Token.Spelled shuffledTokens shuffledText.toList := by
  have hblank : ∀ c ∈ [' '], Token.isSpace c = true := List.all_eq_true.mp rfl
  have hbreak : ∀ c ∈ ['\n', ' '], Token.isSpace c = true := List.all_eq_true.mp rfl
  have htwo := @Number.spelling_integer 2 (by decide) (by decide)
  have hseven := @Number.spelling_integer 7 (by decide) (by decide)
  have hid := (spelling_quotation "Id").spelled_append (Token.Spelling.colon.spelled_append
    (hseven.spelled_append Token.Spelling.closeRecord.spelled))
  have hname := (spelling_quotation "Name").spelled_append (Token.Spelling.colon.spelled_append
    (spelling_escapedName.spelled_append (Token.Spelling.comma.spelled_append
      (hid.blanks_append hblank))))
  have hkind := (spelling_quotation "Type").spelled_append (Token.Spelling.colon.spelled_append
    (htwo.spelled_append (Token.Spelling.comma.spelled_append hname)))
  have hseen := Token.Spelling.openList.spelled_append (spelling_beyondBounds.spelled_append
    (Token.Spelling.comma.spelled_append (spelling_loneSurrogate.spelled_append
      (Token.Spelling.closeList.spelled_append (Token.Spelling.comma.spelled_append
        (hkind.blanks_append hbreak))))))
  have hall := Token.Spelling.openRecord.spelled_append
    ((spelling_quotation "Seen").spelled_append (Token.Spelling.colon.spelled_append hseen))
  refine Eq.subst ?_ hall
  decide +kernel

theorem decode_of_shuffledText :
    RecordShape Registry.shape ∧ Registry.shape.Canonical shuffledRegistry ∧
    Registry.shape.WrittenAs shuffledRegistry shuffledText ∧
    Registry.shape.decode shuffledText = .ok shuffledRegistry ∧
    Registry.shape.decode (Registry.shape.encode .compact shuffledRegistry) =
      .ok shuffledRegistry := by
  obtain ⟨hread, hencode, -⟩ := decode_of_recordShape .registry
  have hcanonical : Registry.shape.Canonical shuffledRegistry := by
    simp only [Registry.shape, Kind.shape, Shape.halfWord, Shape.Canonical, Fields.Canonical]
    exact ⟨by decide, trivial, ⟨rfl, by decide, by decide⟩, trivial, trivial⟩
  have hwritten : Registry.shape.WrittenAs shuffledRegistry shuffledText :=
    ⟨_, _, writes_shuffledTree, spelled_shuffledTree, spelled_shuffledText⟩
  have hdecode := hread _ _ hcanonical hwritten
  exact ⟨.registry, hcanonical, hwritten, hdecode, ((hencode _ _ hdecode).2 .compact).2⟩

end UsageReport.Store
