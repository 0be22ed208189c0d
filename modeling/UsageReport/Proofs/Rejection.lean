import UsageReport.Proofs.DurationGrammar

/-!
Why a text is no duration. Its terms are read from the left, each run of digits and each name as
long as it can be, and the first term that cannot be accepted decides; nothing behind it matters.
What comes before it are terms whose sum is still in range.
-/

namespace UsageReport.Duration

open Text

/-- How a text starts, if it is read as a term and what follows it: digits, perhaps a point and
digits, and then what stands for a unit. Each run is as long as it can be. -/
structure Opening where
  whole : List Char
  /-- The digits after the point, if there is a point. -/
  fraction : Option (List Char)
  unit : List Char
  after : List Char
  whole_isDigit : ∀ c ∈ whole, c.isDigit = true
  fraction_isDigit : ∀ c ∈ fraction.getD [], c.isDigit = true
  unit_isUnitCharacter : ∀ c ∈ unit, isUnitCharacter c = true
  clear_digit : Clear Char.isDigit (unit ++ after)
  clear_point : fraction = none → Clear (· == '.') (unit ++ after)
  clear_unit : Clear isUnitCharacter after

namespace Opening

def text (opening : Opening) : List Char :=
  opening.whole ++ (pointText opening.fraction ++ (opening.unit ++ opening.after))

def group (opening : Opening) : Group :=
  ⟨opening.whole, opening.fraction.getD [], opening.unit⟩

/-- There is a digit before the point or after it. -/
def HasDigit (opening : Opening) : Prop :=
  opening.whole ≠ [] ∨ opening.fraction.getD [] ≠ []

/-- What the number comes to in some unit. -/
def nanoseconds (opening : Opening) (unit : TimeUnit) : Nat :=
  digitsValue opening.whole * unit.nanoseconds +
    if opening.fraction.getD [] = [] then 0
    else Group.fractionNanoseconds (opening.fraction.getD []) unit

/-- What is wrong with the term that a text starts with, if the terms before it come to `sum`. -/
inductive Refused (opening : Opening) (sum : Nat) : Fault → Prop where
  | noDigit (hdigit : ¬opening.HasDigit) : Refused opening sum .malformed
  | noUnit (hdigit : opening.HasDigit) (hunit : opening.unit = []) :
      Refused opening sum .missingUnit
  | unknownUnit (hdigit : opening.HasDigit) (hunit : opening.unit ≠ [])
      (hname : ∀ unit : TimeUnit, opening.unit ∉ unit.names) :
      Refused opening sum (.unknownUnit opening.unit)
  | outOfRange {unit : TimeUnit} (hdigit : opening.HasDigit) (hname : opening.unit ∈ unit.names)
      (hbeyond : greatestWord < digitsValue opening.whole ∨
        greatestWord < opening.nanoseconds unit ∨ greatest < sum + opening.nanoseconds unit) :
      Refused opening sum .outOfRange

/-- The runs of an opening are the ones that its text is cut into. -/
theorem split_text (opening : Opening) :
    Group.split opening.text = (opening.group, opening.after) :=
  Group.split_runs opening.whole_isDigit opening.fraction_isDigit opening.unit_isUnitCharacter
    opening.clear_digit opening.clear_point opening.clear_unit

end Opening

/-- The opening of a text, once its number has been cut off. -/
def Opening.ofNumber {whole : List Char} {fraction : Option (List Char)} {rest : List Char}
    (hwhole : ∀ c ∈ whole, c.isDigit = true) (hfraction : ∀ c ∈ fraction.getD [], c.isDigit = true)
    (hdigit : Clear Char.isDigit rest) (hpoint : fraction = none → Clear (· == '.') rest) :
    Opening where
  whole := whole
  fraction := fraction
  unit := rest.takeWhile isUnitCharacter
  after := rest.dropWhile isUnitCharacter
  whole_isDigit := hwhole
  fraction_isDigit := hfraction
  unit_isUnitCharacter _ hc := List.mem_takeWhile_imp hc
  clear_digit := by rwa [List.takeWhile_append_dropWhile]
  clear_point := by rwa [List.takeWhile_append_dropWhile]
  clear_unit := clear_dropWhile _ _

/-- Every text starts in some way, if perhaps with nothing at all. -/
theorem exists_opening (text : List Char) : ∃ opening : Opening, opening.text = text := by
  have hwhole : ∀ c ∈ text.takeWhile Char.isDigit, c.isDigit = true :=
    fun c hc => List.mem_takeWhile_imp hc
  by_cases hpoint : ∃ rest, text.dropWhile Char.isDigit = '.' :: rest
  · obtain ⟨rest, hrest⟩ := hpoint
    have hfraction : ∀ c ∈ (some (rest.takeWhile Char.isDigit)).getD [], c.isDigit = true :=
      fun c hc => List.mem_takeWhile_imp hc
    refine ⟨.ofNumber hwhole hfraction (clear_dropWhile Char.isDigit rest)
      fun hnone => absurd hnone (Option.some_ne_none _), ?_⟩
    simp only [Opening.text, Opening.ofNumber, pointText, List.cons_append,
      List.takeWhile_append_dropWhile, ← hrest]
  · have hclear : Clear (· == '.') (text.dropWhile Char.isDigit) := by
      cases hrest : text.dropWhile Char.isDigit with
      | nil => exact clear_nil _
      | cons c rest =>
          rw [clear_cons, beq_eq_false_iff_ne]
          rintro rfl
          exact hpoint ⟨rest, hrest⟩
    have hfraction : ∀ c ∈ (none : Option (List Char)).getD [], c.isDigit = true :=
      List.forall_mem_nil _
    refine ⟨.ofNumber hwhole hfraction (clear_dropWhile Char.isDigit text) fun _ => hclear, ?_⟩
    simp only [Opening.text, Opening.ofNumber, pointText, List.nil_append,
      List.takeWhile_append_dropWhile]

theorem TimeUnit.ofText?_eq_none {name : List Char} (hname : ∀ unit : TimeUnit, name ∉ unit.names) :
    ofText? name = none := by
  cases hunit : ofText? name with
  | none => rfl
  | some unit => exact absurd (mem_names_of_ofText? hunit) (hname unit)

namespace Opening

variable {opening : Opening}

theorem nanoseconds_of_noDigit (hdigit : ¬opening.HasDigit) :
    opening.group.nanoseconds = .error .malformed := by
  rw [HasDigit, not_or, not_not, not_not] at hdigit
  simp [Group.nanoseconds, group, hdigit]

theorem nanoseconds_of_noUnit (hdigit : opening.HasDigit) (hunit : opening.unit = []) :
    opening.group.nanoseconds = .error .missingUnit := by
  have hnumber : ¬(opening.whole = [] ∧ opening.fraction.getD [] = []) := not_and_or.mpr hdigit
  simp [Group.nanoseconds, group, hnumber, hunit]

theorem nanoseconds_of_unknownUnit (hdigit : opening.HasDigit) (hunit : opening.unit ≠ [])
    (hname : ∀ unit : TimeUnit, opening.unit ∉ unit.names) :
    opening.group.nanoseconds = .error (.unknownUnit opening.unit) := by
  have hnumber : ¬(opening.whole = [] ∧ opening.fraction.getD [] = []) := not_and_or.mpr hdigit
  simp [Group.nanoseconds, group, hnumber, hunit, TimeUnit.ofText?_eq_none hname]

theorem nanoseconds_of_known {unit : TimeUnit} (hdigit : opening.HasDigit)
    (hname : opening.unit ∈ unit.names) :
    opening.group.nanoseconds =
      if greatestWord < digitsValue opening.whole ∨ greatestWord < opening.nanoseconds unit
      then .error .outOfRange else .ok (opening.nanoseconds unit) := by
  have hnumber : ¬(opening.whole = [] ∧ opening.fraction.getD [] = []) := not_and_or.mpr hdigit
  have hne := TimeUnit.ne_nil_of_mem_names hname
  simp only [Group.nanoseconds, group, Bool.and_eq_true, List.isEmpty_iff, hnumber, hne, if_false,
    TimeUnit.ofText?_of_mem_names hname, nanoseconds]
  by_cases hwhole : greatestWord < digitsValue opening.whole
  · simp [hwhole]
  · simp [hwhole]

/-- A term is refused if it comes to nothing by itself, or else to more than there is room for. -/
theorem refused_iff {sum : Nat} {fault : Fault} :
    opening.Refused sum fault ↔
      opening.group.nanoseconds = .error fault ∨
        fault = .outOfRange ∧
          ∃ value, opening.group.nanoseconds = .ok value ∧ greatest < sum + value := by
  constructor
  · intro hrefused
    cases hrefused with
    | noDigit hdigit => exact .inl (nanoseconds_of_noDigit hdigit)
    | noUnit hdigit hunit => exact .inl (nanoseconds_of_noUnit hdigit hunit)
    | unknownUnit hdigit hunit hname =>
        exact .inl (nanoseconds_of_unknownUnit hdigit hunit hname)
    | outOfRange hdigit hname hbeyond =>
        rw [nanoseconds_of_known hdigit hname]
        split
        · exact .inl rfl
        · rename_i hword
          exact .inr ⟨rfl, _, rfl, (or_assoc.mpr hbeyond).resolve_left hword⟩
  · intro hfails
    have hfault {found : Fault} (herror : opening.group.nanoseconds = .error found) :
        found = fault := by
      rw [herror] at hfails
      rcases hfails with hsame | ⟨-, value, hvalue, -⟩
      · exact Except.error.inj hsame
      · cases hvalue
    by_cases hdigit : opening.HasDigit
    case neg =>
      exact hfault (nanoseconds_of_noDigit hdigit) ▸ .noDigit hdigit
    by_cases hunit : opening.unit = []
    case pos =>
      exact hfault (nanoseconds_of_noUnit hdigit hunit) ▸ .noUnit hdigit hunit
    by_cases hname : ∀ unit : TimeUnit, opening.unit ∉ unit.names
    case pos =>
      exact hfault (nanoseconds_of_unknownUnit hdigit hunit hname) ▸ .unknownUnit hdigit hunit hname
    obtain ⟨unit, hname⟩ := not_forall_not.mp hname
    have hvalue := nanoseconds_of_known hdigit hname
    split at hvalue
    · rename_i hword
      exact hfault hvalue ▸ .outOfRange hdigit hname (or_assoc.mp (.inl hword))
    · rw [hvalue] at hfails
      rcases hfails with herror | ⟨rfl, value, hsame, hbeyond⟩
      · cases herror
      · cases hsame
        exact .outOfRange hdigit hname (.inr (.inr hbeyond))

end Opening

theorem sumGroups_text_of_refused {opening : Opening} {sum : Nat} {fault : Fault}
    (hne : opening.text ≠ []) (hrefused : opening.Refused sum fault) :
    sumGroups sum opening.text = .error fault := by
  rw [sumGroups_of_ne_nil _ hne, opening.split_text]
  rcases Opening.refused_iff.mp hrefused with herror | ⟨rfl, value, hvalue, hbeyond⟩
  · rw [herror]
  · simp only [hvalue, if_pos hbeyond]

/-- If the groups of a text cannot be added up, it has terms up to one that is refused. -/
theorem exists_refused_of_sumGroups {sum : Nat} {text : List Char} {fault : Fault}
    (hsum : sum ≤ greatest) (herror : sumGroups sum text = .error fault) :
    ∃ (terms : List Term) (opening : Opening),
      text = terms.flatMap Term.text ++ opening.text ∧ opening.text ≠ [] ∧
        (terms = [] ∨ Clear isUnitCharacter opening.text) ∧ sum + total terms ≤ greatest ∧
        opening.Refused (sum + total terms) fault := by
  -- Where the sum stops, no term is left to be taken.
  have hstops {sum : Nat} {c : Char} {text : List Char} (hsum : sum ≤ greatest)
      (hfails : (Group.split (c :: text)).1.nanoseconds = .error fault ∨ fault = .outOfRange ∧
        ∃ value, (Group.split (c :: text)).1.nanoseconds = .ok value ∧ greatest < sum + value) :
      ∃ opening : Opening, c :: text = opening.text ∧ opening.text ≠ [] ∧ sum ≤ greatest ∧
        opening.Refused sum fault := by
    obtain ⟨opening, htext⟩ := exists_opening (c :: text)
    rw [← htext, opening.split_text] at hfails
    exact ⟨opening, htext.symm, by simp [htext], hsum, Opening.refused_iff.mpr hfails⟩
  fun_induction sumGroups sum text with
  | case1 => cases herror
  | case2 sum c text found hfound =>
      cases herror
      obtain ⟨opening, htext, hne, hfits, hrefused⟩ := hstops hsum (.inl hfound)
      exact ⟨[], opening, htext, hne, .inl rfl, hfits, hrefused⟩
  | case3 sum c text value hvalue hbeyond =>
      cases herror
      obtain ⟨opening, htext, hne, hfits, hrefused⟩ :=
        hstops hsum (.inr ⟨rfl, value, hvalue, hbeyond⟩)
      exact ⟨[], opening, htext, hne, .inl rfl, hfits, hrefused⟩
  | case4 sum c text value hvalue hfits ih =>
      obtain ⟨term, htext, hterm⟩ := Group.exists_term_of_nanoseconds hvalue
      obtain ⟨terms, opening, hrest, hne, hclear, htotal, hrefused⟩ :=
        ih (Nat.le_of_not_lt hfits) herror
      refine ⟨term :: terms, opening, ?_, hne, .inr ?_, ?_, ?_⟩
      · rw [List.flatMap_cons, List.append_assoc, ← hrest, ← htext]
      · rcases hclear with rfl | hclear
        · have hafter : (Group.split (c :: text)).2 = opening.text := hrest
          rw [← hafter]
          exact clear_dropWhile _ _
        · exact hclear
      · rwa [total_cons, ← Nat.add_assoc, ← hterm]
      · rwa [total_cons, ← Nat.add_assoc, ← hterm]

/-- What decides why a text without a sign is no duration: that it is empty, or the first term that
is refused. The terms before it are in range, and the last of them has its whole name. -/
inductive Rejected : List Char → Fault → Prop where
  | empty : Rejected [] .malformed
  | term {terms : List Term} {opening : Opening} {fault : Fault}
      (hzero : terms.flatMap Term.text ++ opening.text ≠ ['0']) (hne : opening.text ≠ [])
      (hclear : terms = [] ∨ Clear isUnitCharacter opening.text) (hfits : total terms ≤ greatest)
      (hrefused : opening.Refused (total terms) fault) :
      Rejected (terms.flatMap Term.text ++ opening.text) fault

theorem magnitude_of_ne {text : List Char} (hzero : text ≠ ['0']) (hne : text ≠ []) :
    magnitude text = sumGroups 0 text := by
  unfold magnitude
  split
  · exact absurd rfl hzero
  · exact absurd rfl hne
  · rfl

theorem magnitude_eq_error_iff {text : List Char} {fault : Fault} :
    magnitude text = .error fault ↔ Rejected text fault := by
  constructor
  · intro herror
    by_cases hzero : text = ['0']
    · subst hzero
      cases herror
    by_cases hne : text = []
    · subst hne
      cases herror
      exact .empty
    rw [magnitude_of_ne hzero hne] at herror
    obtain ⟨terms, opening, rfl, hopening, hclear, hfits, hrefused⟩ :=
      exists_refused_of_sumGroups (Nat.zero_le _) herror
    rw [Nat.zero_add] at hfits hrefused
    exact .term hzero hopening hclear hfits hrefused
  · intro hrejected
    cases hrejected with
    | empty => rfl
    | @term terms opening _ hzero hne hclear hfits hrefused =>
        rw [← Nat.zero_add (total terms)] at hfits hrefused
        rw [magnitude_of_ne hzero (by simp [hne]), sumGroups_flatMap_text_append hclear hfits,
          sumGroups_text_of_refused hne hrefused]

theorem exists_sign (text : List Char) :
    ∃ (sign : Sign) (body : List Char), text = sign.text ++ body ∧
      (sign = .none → Clear isSign body) := by
  cases text with
  | nil => exact ⟨.none, [], rfl, fun _ => clear_nil _⟩
  | cons c text =>
      by_cases hminus : c = '-'
      · exact ⟨.minus, text, by rw [hminus]; rfl, nofun⟩
      by_cases hplus : c = '+'
      · exact ⟨.plus, text, by rw [hplus]; rfl, nofun⟩
      · exact ⟨.none, c :: text, rfl, fun _ => clear_cons.mpr (by simp [isSign, hminus, hplus])⟩

theorem parse_eq_error {sign : Sign} {body : List Char} (hsign : sign = .none → Clear isSign body)
    (error : Error) :
    parse (String.ofList (sign.text ++ body)) = .error error ↔
      error.text = String.ofList (sign.text ++ body) ∧ Rejected body error.fault := by
  rw [← magnitude_eq_error_iff]
  simp only [parse, String.toList_ofList, splitSign_append hsign]
  cases hmagnitude : magnitude body with
  | ok value => simp
  | error fault =>
      obtain ⟨found, text⟩ := error
      simp [eq_comm, and_comm]

/-- A text is rejected for what is wrong, behind a sign if it has one, with the first term that is
refused, and the error holds the whole text. So signs make no difference to why a text that has
none is rejected. -/
theorem parse_eq_error_iff :
    (∀ (text : String) (error : Error), parse text = .error error ↔
      error.text = text ∧ ∃ sign body, text.toList = Sign.text sign ++ body ∧
        (sign = .none → Clear isSign body) ∧ Rejected body error.fault) ∧
    ∀ body : List Char, Clear isSign body → ∀ (sign : Sign) (fault : Fault),
      parse (String.ofList (sign.text ++ body)) =
          .error ⟨fault, String.ofList (sign.text ++ body)⟩ ↔
        parse (String.ofList body) = .error ⟨fault, String.ofList body⟩ := by
  refine ⟨fun text error => ⟨fun herror => ?_, ?_⟩, fun body hclear sign fault => ?_⟩
  · obtain ⟨sign, body, htext, hsign⟩ := exists_sign text.toList
    rw [← String.ofList_toList (s := text), htext, parse_eq_error hsign] at herror
    rw [← htext, String.ofList_toList] at herror
    exact ⟨herror.1, sign, body, htext, hsign, herror.2⟩
  · rintro ⟨herror, sign, body, htext, hsign, hrejected⟩
    rw [← String.ofList_toList (s := text), htext, parse_eq_error hsign, ← htext,
      String.ofList_toList]
    exact ⟨herror, hrejected⟩
  · have hnone := @parse_eq_error .none body (fun _ => hclear) ⟨fault, String.ofList body⟩
    rw [Sign.text, List.nil_append] at hnone
    rw [parse_eq_error fun _ => hclear, hnone]
    simp

/-- The greatest duration of all. -/
def greatestTerm : Term where
  whole := "9223372036854775807".toList
  fraction := none
  unit := .nanosecond
  name := ['n', 's']
  whole_isDigit := List.all_eq_true.mp (by decide)
  fraction_isDigit := List.forall_mem_nil _
  exists_digit := .inl (by decide)
  name_mem := by decide

/-- One nanosecond more, in front of a point without digits. -/
def lastStraw : Opening where
  whole := ['1']
  fraction := none
  unit := ['n', 's']
  after := ['.', 'h']
  whole_isDigit := List.all_eq_true.mp rfl
  fraction_isDigit := nofun
  unit_isUnitCharacter := List.all_eq_true.mp rfl
  clear_digit := clear_cons.mpr rfl
  clear_point _ := clear_cons.mpr rfl
  clear_unit := clear_cons.mpr rfl

/-- Two and a half of a unit that is not known. -/
def strayUnit : Opening where
  whole := ['2']
  fraction := some ['5']
  unit := ['\u00b5', '-', ' ', 'd']
  after := ['9', 's']
  whole_isDigit := List.all_eq_true.mp rfl
  fraction_isDigit := List.all_eq_true.mp rfl
  unit_isUnitCharacter := List.all_eq_true.mp rfl
  clear_digit := clear_cons.mpr rfl
  clear_point := nofun
  clear_unit := clear_cons.mpr rfl

theorem parse_lastStraw :
    parse "9223372036854775807ns1ns.h" = .error ⟨.outOfRange, "9223372036854775807ns1ns.h"⟩ ∧
    parse "+2.5\u00b5- d9s" =
      .error ⟨.unknownUnit ['\u00b5', '-', ' ', 'd'], "+2.5\u00b5- d9s"⟩ ∧
    Clear isSign "2.5\u00b5- d9s".toList ∧
    parse "-2.5\u00b5- d9s" =
      .error ⟨.unknownUnit ['\u00b5', '-', ' ', 'd'], "-2.5\u00b5- d9s"⟩ := by
  obtain ⟨hrejected, hsigns⟩ := parse_eq_error_iff
  have hrange : Rejected "9223372036854775807ns1ns.h".toList .outOfRange := by
    refine @Rejected.term [greatestTerm] lastStraw _ (by decide) (by decide) ?_ (by decide) ?_
    · exact .inr (clear_cons.mpr rfl)
    · exact .outOfRange (.inl (by decide)) (show _ ∈ TimeUnit.nanosecond.names by decide)
        (.inr (.inr (by decide +kernel)))
  have hunit : Rejected "2.5\u00b5- d9s".toList (.unknownUnit strayUnit.unit) := by
    refine @Rejected.term [] strayUnit _ (by decide) (by decide) (.inl rfl) (by decide) ?_
    refine .unknownUnit (.inl (by decide)) (by decide) fun unit => ?_
    cases unit <;> decide
  have hclear : Clear isSign "2.5\u00b5- d9s".toList := clear_cons.mpr rfl
  have hplain : parse "2.5\u00b5- d9s" = .error ⟨.unknownUnit strayUnit.unit, "2.5\u00b5- d9s"⟩ :=
    (hrejected _ _).mpr ⟨rfl, .none, _, rfl, fun _ => hclear, hunit⟩
  refine ⟨?_, ?_, hclear, ?_⟩
  · exact (hrejected _ _).mpr ⟨rfl, .none, _, rfl, fun _ => clear_cons.mpr rfl, hrange⟩
  · exact (hrejected _ _).mpr ⟨rfl, .plus, _, rfl, nofun, hunit⟩
  · exact (hsigns _ hclear .minus _).mpr hplain

end UsageReport.Duration
