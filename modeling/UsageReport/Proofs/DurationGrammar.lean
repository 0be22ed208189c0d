import Mathlib
import UsageReport.Duration
import UsageReport.Proofs.Digits
import UsageReport.Proofs.Span

/-!
Which texts are durations. A duration is an optional sign and then a lone zero or one or more
terms, each of a decimal number and the name of a unit. It comes to the exact sum of its terms, and
it is accepted if that sum is not beyond the greatest duration.

A name holds no digit and no point, and every term starts with one of them. So the name of a term is
all that stands before the next term, and a text has its terms in one way only.
-/

namespace UsageReport.Duration

open Text

namespace TimeUnit

def names : TimeUnit → List (List Char)
  | .nanosecond => [['n', 's']]
  | .microsecond => [['u', 's'], ['\u00b5', 's'], ['\u03bc', 's']]
  | .millisecond => [['m', 's']]
  | .second => [['s']]
  | .minute => [['m']]
  | .hour => [['h']]

theorem ofText?_of_mem_names {unit : TimeUnit} {name : List Char} (hname : name ∈ unit.names) :
    ofText? name = some unit := by
  cases unit <;> simp only [names, List.mem_cons, List.not_mem_nil, or_false] at hname
  case microsecond => rcases hname with rfl | rfl | rfl <;> rfl
  all_goals
    subst hname
    rfl

theorem mem_names_of_ofText? {unit : TimeUnit} {name : List Char}
    (hunit : ofText? name = some unit) : name ∈ unit.names := by
  unfold ofText? at hunit
  split at hunit <;> cases hunit <;> simp [names]

theorem isUnitCharacter_of_mem_names {unit : TimeUnit} {name : List Char}
    (hname : name ∈ unit.names) : ∀ c ∈ name, isUnitCharacter c = true := by
  apply List.all_eq_true.mp
  cases unit <;> simp only [names, List.mem_cons, List.not_mem_nil, or_false] at hname
  case microsecond => rcases hname with rfl | rfl | rfl <;> rfl
  all_goals
    subst hname
    rfl

theorem ne_nil_of_mem_names {unit : TimeUnit} {name : List Char} (hname : name ∈ unit.names) :
    name ≠ [] := by
  rintro rfl
  cases ofText?_of_mem_names hname

end TimeUnit

/-- A point and the digits after it, if there is a point. -/
def pointText : Option (List Char) → List Char
  | none => []
  | some digits => '.' :: digits

/-- A number and a unit. The number has a digit somewhere; a point may stand without digits on one
of its sides. -/
structure Term where
  whole : List Char
  /-- The digits after the point, if there is a point. -/
  fraction : Option (List Char)
  unit : TimeUnit
  name : List Char
  whole_isDigit : ∀ c ∈ whole, c.isDigit = true
  fraction_isDigit : ∀ c ∈ fraction.getD [], c.isDigit = true
  exists_digit : whole ≠ [] ∨ fraction.getD [] ≠ []
  name_mem : name ∈ unit.names

namespace Term

def text (term : Term) : List Char := term.whole ++ (pointText term.fraction ++ term.name)

/-- Whole units exactly, and the first eighteen digits after the point as far as they give whole
nanoseconds. -/
def nanoseconds (term : Term) : Nat :=
  digitsValue term.whole * term.unit.nanoseconds +
    if term.fraction.getD [] = [] then 0
    else Group.fractionNanoseconds ((term.fraction.getD []).take 18) term.unit

def group (term : Term) : Group := ⟨term.whole, term.fraction.getD [], term.name⟩

theorem text_ne_nil (term : Term) : term.text ≠ [] := by
  have hname := TimeUnit.ne_nil_of_mem_names term.name_mem
  simp [text, hname]

/-- A term starts with a digit or a point. -/
theorem clear_text (term : Term) : Clear isUnitCharacter term.text := by
  cases hwhole : term.whole with
  | cons c whole =>
      have hdigit := term.whole_isDigit c (by simp [hwhole])
      rw [text, hwhole, List.cons_append, clear_cons]
      simp [isUnitCharacter, hdigit]
  | nil =>
      cases hfraction : term.fraction with
      | none => exact absurd term.exists_digit (by simp [hwhole, hfraction])
      | some digits =>
          rw [text, hwhole, hfraction, List.nil_append, pointText, List.cons_append, clear_cons]
          decide

theorem clear_flatMap_text (terms : List Term) : Clear isUnitCharacter (terms.flatMap text) := by
  cases terms with
  | nil => exact clear_nil _
  | cons term terms =>
      rw [List.flatMap_cons, clear_append_of_ne_nil _ term.text_ne_nil]
      exact term.clear_text

end Term

theorem isDigit_of_isUnitCharacter {c : Char} (hc : isUnitCharacter c = true) :
    c.isDigit = false := by
  simp only [isUnitCharacter, Bool.not_eq_true', Bool.or_eq_false_iff] at hc
  exact hc.1

theorem splitFraction_of_clear {text : List Char} (hclear : Clear (· == '.') text) :
    splitFraction text = ([], text) := by
  unfold splitFraction
  split
  · cases clear_cons.mp hclear
  · rfl

theorem splitFraction_append {fraction : Option (List Char)} {rest : List Char}
    (hdigits : ∀ c ∈ fraction.getD [], c.isDigit = true) (hrest : Clear Char.isDigit rest)
    (hpoint : fraction = none → Clear (· == '.') rest) :
    splitFraction (pointText fraction ++ rest) = (fraction.getD [], rest) := by
  cases fraction with
  | none => exact splitFraction_of_clear (hpoint rfl)
  | some digits =>
      rw [Option.getD_some] at hdigits ⊢
      simp only [pointText, List.cons_append, splitFraction,
        takeWhile_append_of_clear hdigits hrest, dropWhile_append_of_clear hdigits hrest]

theorem splitFraction_eq_pointText (text : List Char) :
    ∃ fraction : Option (List Char), (splitFraction text).1 = fraction.getD [] ∧
      text = pointText fraction ++ (splitFraction text).2 ∧
      ∀ c ∈ fraction.getD [], c.isDigit = true := by
  unfold splitFraction
  split
  · rename_i rest
    refine ⟨some (rest.takeWhile Char.isDigit), rfl, ?_, fun c hc => List.mem_takeWhile_imp hc⟩
    simp [pointText, List.takeWhile_append_dropWhile]
  · exact ⟨none, rfl, rfl, by simp⟩

namespace Group

theorem fractionNanoseconds_take (digits : List Char) (unit : TimeUnit) :
    fractionNanoseconds (digits.take 18) unit = fractionNanoseconds digits unit := by
  simp [fractionNanoseconds, keptDigits, List.take_take]

/-- Runs that are as long as they can be are the ones that a text is cut into. -/
theorem split_runs {whole unit rest : List Char} {fraction : Option (List Char)}
    (hwhole : ∀ c ∈ whole, c.isDigit = true) (hfraction : ∀ c ∈ fraction.getD [], c.isDigit = true)
    (hunit : ∀ c ∈ unit, isUnitCharacter c = true) (hdigit : Clear Char.isDigit (unit ++ rest))
    (hpoint : fraction = none → Clear (· == '.') (unit ++ rest))
    (hrest : Clear isUnitCharacter rest) :
    split (whole ++ (pointText fraction ++ (unit ++ rest))) =
      (⟨whole, fraction.getD [], unit⟩, rest) := by
  have hafter : Clear Char.isDigit (pointText fraction ++ (unit ++ rest)) := by
    cases fraction with
    | none => exact hdigit
    | some digits => exact clear_cons.mpr (by decide)
  simp only [split, takeWhile_append_of_clear hwhole hafter,
    dropWhile_append_of_clear hwhole hafter, splitFraction_append hfraction hdigit hpoint,
    takeWhile_append_of_clear hunit hrest, dropWhile_append_of_clear hunit hrest]

theorem split_append (term : Term) {rest : List Char} (hrest : Clear isUnitCharacter rest) :
    split (term.text ++ rest) = (term.group, rest) := by
  have hname := TimeUnit.isUnitCharacter_of_mem_names term.name_mem
  have hne := TimeUnit.ne_nil_of_mem_names term.name_mem
  have hclear {p : Char → Bool} (hp : ∀ c, isUnitCharacter c = true → p c = false) :
      Clear p (term.name ++ rest) := by
    rw [clear_append_of_ne_nil rest hne]
    exact fun c hc => hp c (hname c (List.mem_of_mem_head? hc))
  have hdigit : Clear Char.isDigit (term.name ++ rest) :=
    hclear fun _ => isDigit_of_isUnitCharacter
  have hpoint : Clear (· == '.') (term.name ++ rest) := hclear fun c hc => by
    simp only [isUnitCharacter, Bool.not_eq_true', Bool.or_eq_false_iff] at hc
    exact hc.2
  rw [Term.text, List.append_assoc, List.append_assoc]
  exact split_runs term.whole_isDigit term.fraction_isDigit hname hdigit (fun _ => hpoint) hrest

/-- The group at the start of a text is written by a term if it has a digit and the name of a
unit. -/
theorem exists_term_of_split {text : List Char} {unit : TimeUnit}
    (hdigit : (split text).1.whole ≠ [] ∨ (split text).1.fraction ≠ [])
    (hunit : TimeUnit.ofText? (split text).1.unit = some unit) :
    ∃ term : Term, term.group = (split text).1 ∧ text = term.text ++ (split text).2 := by
  obtain ⟨fraction, hfraction, htext, hdigits⟩ :=
    splitFraction_eq_pointText (text.dropWhile Char.isDigit)
  have hwhole : ∀ c ∈ (split text).1.whole, c.isDigit = true :=
    fun c hc => List.mem_takeWhile_imp hc
  have hsplit : (split text).1.fraction = fraction.getD [] := hfraction
  refine ⟨⟨(split text).1.whole, fraction, unit, (split text).1.unit, hwhole, hdigits, ?_,
    TimeUnit.mem_names_of_ofText? hunit⟩, ?_, ?_⟩
  · rwa [← hsplit]
  · simp only [Term.group, ← hsplit]
  · calc
      text = text.takeWhile Char.isDigit ++ text.dropWhile Char.isDigit :=
        List.takeWhile_append_dropWhile.symm
      _ = text.takeWhile Char.isDigit ++ (pointText fraction ++
            ((split text).1.unit ++ (split text).2)) := by
        simp only [split, List.takeWhile_append_dropWhile]
        rw [← htext, List.takeWhile_append_dropWhile]
      _ = _ := by simp [Term.text, split]

theorem nanoseconds_group (term : Term) :
    term.group.nanoseconds =
      if greatestWord < term.nanoseconds then .error .outOfRange else .ok term.nanoseconds := by
  have hdigit : ¬(term.whole = [] ∧ term.fraction.getD [] = []) :=
    not_and_or.mpr term.exists_digit
  have hne := TimeUnit.ne_nil_of_mem_names term.name_mem
  -- The whole part is checked on its own first, but it never exceeds the term.
  have hle : digitsValue term.whole ≤ term.nanoseconds := by
    have hunit : 1 ≤ term.unit.nanoseconds := by cases term.unit <;> decide
    exact Nat.le_add_right_of_le (Nat.le_mul_of_pos_right _ hunit)
  have hvalue : digitsValue term.whole * term.unit.nanoseconds +
      (if term.fraction.getD [] = [] then 0
        else fractionNanoseconds (term.fraction.getD []) term.unit) = term.nanoseconds := by
    rw [Term.nanoseconds, fractionNanoseconds_take]
  simp only [nanoseconds, Term.group, Bool.and_eq_true, List.isEmpty_iff, hdigit, hne, if_false,
    TimeUnit.ofText?_of_mem_names term.name_mem, hvalue]
  by_cases hfits : greatestWord < term.nanoseconds
  · simp [hfits]
  · have hwhole : ¬greatestWord < digitsValue term.whole := by omega
    simp [hfits, hwhole]

theorem exists_unit_of_nanoseconds {group : Group} {value : Nat}
    (hvalue : group.nanoseconds = .ok value) :
    (group.whole ≠ [] ∨ group.fraction ≠ []) ∧
      ∃ unit, TimeUnit.ofText? group.unit = some unit := by
  unfold nanoseconds at hvalue
  split at hvalue
  · cases hvalue
  · rename_i hdigit
    split at hvalue
    · cases hvalue
    · split at hvalue
      · cases hvalue
      · rename_i unit hunit
        rw [Bool.and_eq_true, List.isEmpty_iff, List.isEmpty_iff] at hdigit
        exact ⟨not_and_or.mp hdigit, unit, hunit⟩

/-- A group that comes to something is written by a term of that value. -/
theorem exists_term_of_nanoseconds {text : List Char} {value : Nat}
    (hvalue : (split text).1.nanoseconds = .ok value) :
    ∃ term : Term, text = term.text ++ (split text).2 ∧ value = term.nanoseconds := by
  obtain ⟨hdigit, unit, hunit⟩ := exists_unit_of_nanoseconds hvalue
  obtain ⟨term, hgroup, htext⟩ := exists_term_of_split hdigit hunit
  refine ⟨term, htext, ?_⟩
  rw [← hgroup, nanoseconds_group] at hvalue
  split at hvalue
  · cases hvalue
  · exact (Except.ok.inj hvalue).symm

end Group

def total (terms : List Term) : Nat := (terms.map Term.nanoseconds).sum

theorem total_cons (term : Term) (terms : List Term) :
    total (term :: terms) = term.nanoseconds + total terms := by
  rw [total, List.map_cons, List.sum_cons, total]

theorem greatest_le_greatestWord : greatest ≤ greatestWord := by decide

theorem sumGroups_of_ne_nil (sum : Nat) {text : List Char} (hne : text ≠ []) :
    sumGroups sum text =
      match (Group.split text).1.nanoseconds with
      | .error fault => .error fault
      | .ok value =>
        if greatest < sum + value then .error .outOfRange
        else sumGroups (sum + value) (Group.split text).2 := by
  cases text with
  | nil => exact absurd rfl hne
  | cons c text => exact sumGroups.eq_2 sum c text

theorem sumGroups_text_append {term : Term} {rest : List Char} {sum : Nat}
    (hclear : Clear isUnitCharacter rest) (hfits : sum + term.nanoseconds ≤ greatest) :
    sumGroups sum (term.text ++ rest) = sumGroups (sum + term.nanoseconds) rest := by
  -- What is in range together with the sum is a word by itself.
  have hword : ¬greatestWord < term.nanoseconds := by
    have := greatest_le_greatestWord
    omega
  rw [sumGroups_of_ne_nil _ (by simp [term.text_ne_nil]), Group.split_append term hclear,
    Group.nanoseconds_group, if_neg hword]
  simp only [if_neg (Nat.not_lt.mpr hfits)]

/-- Terms that are in range are added up before anything that follows them is looked at. -/
theorem sumGroups_flatMap_text_append {terms : List Term} {rest : List Char} {sum : Nat}
    (hclear : terms = [] ∨ Clear isUnitCharacter rest) (hfits : sum + total terms ≤ greatest) :
    sumGroups sum (terms.flatMap Term.text ++ rest) = sumGroups (sum + total terms) rest := by
  induction terms generalizing sum with
  | nil => rfl
  | cons term terms ih =>
      have hrest : Clear isUnitCharacter rest := hclear.resolve_left (List.cons_ne_nil _ _)
      rw [total_cons, ← Nat.add_assoc] at hfits ⊢
      have hterm : sum + term.nanoseconds ≤ greatest := Nat.le_of_add_right_le hfits
      rw [List.flatMap_cons, List.append_assoc,
        sumGroups_text_append ((Term.clear_flatMap_text terms).append hrest) hterm]
      exact ih (.inr hrest) hfits

theorem sumGroups_flatMap_text {terms : List Term} {sum : Nat}
    (hfits : sum + total terms ≤ greatest) :
    sumGroups sum (terms.flatMap Term.text) = .ok (sum + total terms) := by
  rw [← List.append_nil (terms.flatMap Term.text),
    sumGroups_flatMap_text_append (.inr (clear_nil _)) hfits, sumGroups]

theorem exists_terms_of_sumGroups {sum : Nat} {text : List Char} {value : Nat}
    (hsum : sum ≤ greatest) (hvalue : sumGroups sum text = .ok value) :
    ∃ terms, text = terms.flatMap Term.text ∧ value = sum + total terms ∧ value ≤ greatest := by
  fun_induction sumGroups sum text with
  | case1 sum =>
      cases hvalue
      exact ⟨[], rfl, rfl, hsum⟩
  | case2 | case3 => cases hvalue
  | case4 sum c text first hfirst hfits ih =>
      obtain ⟨term, htext, hterm⟩ := Group.exists_term_of_nanoseconds hfirst
      obtain ⟨terms, hrest, rfl, hgreatest⟩ := ih (Nat.le_of_not_lt hfits) hvalue
      refine ⟨term :: terms, ?_, ?_, hgreatest⟩
      · rw [List.flatMap_cons, ← hrest, ← htext]
      · rw [total_cons, hterm, Nat.add_assoc]

/-- The text of a duration without a sign, and what it comes to. -/
inductive Denotes : List Char → Nat → Prop where
  | zero : Denotes ['0'] 0
  | sum {terms : List Term} (hne : terms ≠ []) : Denotes (terms.flatMap Term.text) (total terms)

theorem flatMap_text_ne_zero (terms : List Term) : terms.flatMap Term.text ≠ ['0'] := by
  cases terms with
  | nil => decide
  | cons term terms =>
      intro hzero
      have hsplit := Group.split_append term (Term.clear_flatMap_text terms)
      rw [← List.flatMap_cons, hzero] at hsplit
      have hname : ([] : List Char) = term.name := congrArg (fun found => found.1.unit) hsplit
      exact TimeUnit.ne_nil_of_mem_names term.name_mem hname.symm

theorem magnitude_eq_ok_iff {text : List Char} {value : Nat} :
    magnitude text = .ok value ↔ Denotes text value ∧ value ≤ greatest := by
  constructor
  · intro hvalue
    unfold magnitude at hvalue
    split at hvalue
    · cases hvalue
      exact ⟨.zero, Nat.zero_le _⟩
    · cases hvalue
    · rename_i hzero hnil
      obtain ⟨terms, rfl, rfl, hgreatest⟩ := exists_terms_of_sumGroups (Nat.zero_le _) hvalue
      rw [Nat.zero_add] at hgreatest ⊢
      refine ⟨.sum ?_, hgreatest⟩
      rintro rfl
      exact hnil rfl
  · rintro ⟨hdenotes, hgreatest⟩
    cases hdenotes with
    | zero => rfl
    | @sum terms hne =>
        have hsum := sumGroups_flatMap_text ((Nat.zero_add (total terms)).symm ▸ hgreatest)
        rw [Nat.zero_add] at hsum
        unfold magnitude
        split
        · rename_i hzero
          exact absurd hzero (flatMap_text_ne_zero terms)
        · rename_i hnil
          cases terms with
          | nil => exact absurd rfl hne
          | cons term terms => simp [term.text_ne_nil] at hnil
        · exact hsum

inductive Sign where
  | none
  | plus
  | minus
deriving DecidableEq

namespace Sign

def text : Sign → List Char
  | .none => []
  | .plus => ['+']
  | .minus => ['-']

def apply (sign : Sign) (value : Nat) : Int := if sign = .minus then -value else value

end Sign

theorem splitSign_eq (text : List Char) :
    ∃ sign : Sign, text = sign.text ++ (splitSign text).2 ∧
      (splitSign text).1 = decide (sign = .minus) := by
  unfold splitSign
  split
  · exact ⟨.minus, rfl, rfl⟩
  · exact ⟨.plus, rfl, rfl⟩
  · exact ⟨.none, rfl, rfl⟩

def isSign (c : Char) : Bool := c == '-' || c == '+'

theorem splitSign_append {sign : Sign} {body : List Char}
    (hsign : sign = .none → Clear isSign body) :
    splitSign (sign.text ++ body) = (decide (sign = .minus), body) := by
  cases sign with
  | minus => rfl
  | plus => rfl
  | none =>
      have hclear := hsign rfl
      rw [Sign.text, List.nil_append]
      unfold splitSign
      split
      · cases clear_cons.mp hclear
      · cases clear_cons.mp hclear
      · rfl

/-- A duration without its sign starts with a digit or a point. -/
theorem Denotes.clear_isSign {body : List Char} {value : Nat} (hdenotes : Denotes body value) :
    Clear isSign body := by
  have hclear : Clear isUnitCharacter body := by
    cases hdenotes with
    | zero => exact clear_cons.mpr (by decide)
    | sum => exact Term.clear_flatMap_text _
  intro c hc
  have hunit := hclear c hc
  rw [isSign, Bool.or_eq_false_iff, beq_eq_false_iff_ne, beq_eq_false_iff_ne]
  constructor <;> rintro rfl <;> cases hunit

theorem Term.nanoseconds_eq_of_group_eq {first second : Term} (hgroup : first.group = second.group) :
    first.nanoseconds = second.nanoseconds := by
  simp only [group, Group.mk.injEq] at hgroup
  obtain ⟨hwhole, hfraction, hname⟩ := hgroup
  have hunit : first.unit = second.unit := by
    have hfirst := TimeUnit.ofText?_of_mem_names first.name_mem
    rw [hname, TimeUnit.ofText?_of_mem_names second.name_mem] at hfirst
    exact (Option.some.inj hfirst).symm
  rw [nanoseconds, nanoseconds, hwhole, hfraction, hunit]

theorem total_eq_of_flatMap_text_eq {first second : List Term}
    (htext : first.flatMap Term.text = second.flatMap Term.text) : total first = total second := by
  induction first generalizing second with
  | nil =>
      cases second with
      | nil => rfl
      | cons other second => simp [other.text_ne_nil] at htext
  | cons term first ih =>
      cases second with
      | nil => simp [term.text_ne_nil] at htext
      | cons other second =>
          -- Both texts are cut at the same place, so the first terms agree and the rests do.
          have hterm := Group.split_append term (Term.clear_flatMap_text first)
          have hother := Group.split_append other (Term.clear_flatMap_text second)
          rw [← List.flatMap_cons] at hterm hother
          rw [htext, hother] at hterm
          obtain ⟨hgroup, hrest⟩ := Prod.mk.inj hterm
          rw [total_cons, total_cons, ih hrest.symm, Term.nanoseconds_eq_of_group_eq hgroup]

theorem Denotes.unique {body : List Char} {first second : Nat} (hfirst : Denotes body first)
    (hsecond : Denotes body second) : first = second := by
  generalize htext : body = other at hsecond
  cases hfirst with
  | zero =>
      cases hsecond with
      | zero => rfl
      | sum => exact absurd htext.symm (flatMap_text_ne_zero _)
  | sum =>
      cases hsecond with
      | zero => exact absurd htext (flatMap_text_ne_zero _)
      | sum => exact total_eq_of_flatMap_text_eq htext

theorem parse_of_denotes {body : List Char} {magnitude : Nat} (hdenotes : Denotes body magnitude)
    (sign : Sign) (value : Int) :
    parse (String.ofList (sign.text ++ body)) = .ok value ↔
      magnitude ≤ greatest ∧ value = sign.apply magnitude := by
  simp only [parse, String.toList_ofList, splitSign_append fun _ => hdenotes.clear_isSign]
  cases hmagnitude : Duration.magnitude body with
  | error fault =>
      have hbeyond : ¬magnitude ≤ greatest := fun hfits => by
        rw [magnitude_eq_ok_iff.mpr ⟨hdenotes, hfits⟩] at hmagnitude
        cases hmagnitude
      simp [hbeyond]
  | ok found =>
      obtain ⟨hfound, hfits⟩ := magnitude_eq_ok_iff.mp hmagnitude
      obtain rfl := hfound.unique hdenotes
      simp [hfits, Sign.apply, eq_comm]

/-- The term with more zeros in front of its number. -/
def Term.padded (term : Term) (zeros : Nat) : Term where
  whole := List.replicate zeros '0' ++ term.whole
  fraction := term.fraction
  unit := term.unit
  name := term.name
  whole_isDigit c hc := by
    rcases List.mem_append.mp hc with hzero | hwhole
    · rw [List.eq_of_mem_replicate hzero]
      rfl
    · exact term.whole_isDigit c hwhole
  fraction_isDigit := term.fraction_isDigit
  exists_digit := term.exists_digit.imp_left fun hwhole happend =>
    hwhole (List.append_eq_nil_iff.mp happend).2
  name_mem := term.name_mem

theorem Term.nanoseconds_padded (term : Term) (zeros : Nat) :
    (term.padded zeros).nanoseconds = term.nanoseconds := by
  have hwhole : digitsValue (term.padded zeros).whole = digitsValue term.whole :=
    digitsValue_replicate_zero_append zeros term.whole
  rw [nanoseconds, nanoseconds, hwhole]
  rfl

/-- Terms that differ from others only in leading zeros. -/
def Padding (terms padded : List Term) : Prop :=
  List.Forall₂ (fun term other => ∃ zeros, other = term.padded zeros) terms padded

theorem Padding.total_eq {terms padded : List Term} (hpadding : Padding terms padded) :
    total padded = total terms := by
  induction hpadding with
  | nil => rfl
  | cons hterm hterms ih =>
      obtain ⟨zeros, rfl⟩ := hterm
      rw [total_cons, total_cons, ih, Term.nanoseconds_padded]

theorem total_of_no_fraction {terms : List Term}
    (hterms : ∀ term ∈ terms, term.fraction.getD [] = []) :
    total terms = (terms.map fun term => digitsValue term.whole * term.unit.nanoseconds).sum := by
  rw [total]
  congr 1
  apply List.map_congr_left
  intro term hterm
  rw [Term.nanoseconds, if_pos (hterms term hterm), Nat.add_zero]

/-- A text is accepted if and only if it is a duration that is not beyond the greatest one, and its
value is then the sum of its terms with its sign. The name of a unit is all that stands before the
next number. Without digits after a point the sum is one of whole units, and leading zeros make no
difference. -/
theorem parse_eq_ok_iff :
    (∀ (text : String) (value : Int), parse text = .ok value ↔
      ∃ sign body magnitude, text.toList = Sign.text sign ++ body ∧ Denotes body magnitude ∧
        magnitude ≤ greatest ∧ value = sign.apply magnitude) ∧
    (∀ (term : Term) (terms : List Term),
      (term.name ++ terms.flatMap Term.text).takeWhile isUnitCharacter = term.name) ∧
    (∀ terms : List Term, (∀ term ∈ terms, term.fraction.getD [] = []) →
      total terms =
        (terms.map fun term => digitsValue term.whole * term.unit.nanoseconds).sum) ∧
    ∀ (sign : Sign) (terms padded : List Term) (value : Int), Padding terms padded →
      (parse (String.ofList (sign.text ++ padded.flatMap Term.text)) = .ok value ↔
        parse (String.ofList (sign.text ++ terms.flatMap Term.text)) = .ok value) := by
  refine ⟨fun text value => ⟨fun hparse => ?_, ?_⟩, fun term terms => ?_,
    fun terms => total_of_no_fraction, fun sign terms padded value hpadding => ?_⟩
  · obtain ⟨sign, htext, hsign⟩ := splitSign_eq text.toList
    simp only [parse] at hparse
    split at hparse
    · cases hparse
    · rename_i magnitude hmagnitude
      obtain ⟨hdenotes, hfits⟩ := magnitude_eq_ok_iff.mp hmagnitude
      refine ⟨sign, _, magnitude, htext, hdenotes, hfits, ?_⟩
      rw [← Except.ok.inj hparse, hsign]
      simp [Sign.apply]
  · rintro ⟨sign, body, magnitude, htext, hdenotes, hfits, rfl⟩
    rw [← String.ofList_toList (s := text), htext, parse_of_denotes hdenotes]
    exact ⟨hfits, rfl⟩
  · exact takeWhile_append_of_clear (TimeUnit.isUnitCharacter_of_mem_names term.name_mem)
      (Term.clear_flatMap_text terms)
  · cases hpadding with
    | nil => rfl
    | cons hterm hterms =>
        have htotal := Padding.total_eq (.cons hterm hterms)
        rw [parse_of_denotes (.sum (List.cons_ne_nil _ _)),
          parse_of_denotes (.sum (List.cons_ne_nil _ _)), htotal]

/-- A term whose digits are seen to be digits. -/
def Term.ofDigits (whole : List Char) (fraction : Option (List Char)) (unit : TimeUnit)
    (name : List Char) (hwhole : whole.all Char.isDigit = true)
    (hfraction : (fraction.getD []).all Char.isDigit = true)
    (hdigit : whole ≠ [] ∨ fraction.getD [] ≠ []) (hname : name ∈ unit.names) : Term where
  whole := whole
  fraction := fraction
  unit := unit
  name := name
  whole_isDigit := List.all_eq_true.mp hwhole
  fraction_isDigit := List.all_eq_true.mp hfraction
  exists_digit := hdigit
  name_mem := hname

/-- Two hours and forty-five and a half minutes. -/
def longTerms : List Term := [
  .ofDigits ['2'] none .hour ['h'] rfl rfl (by decide) (by decide),
  .ofDigits ['4', '5'] (some ['5']) .minute ['m'] rfl rfl (by decide) (by decide)]

/-- The same without the half minute. -/
def wholeTerms : List Term := [
  .ofDigits ['2'] none .hour ['h'] rfl rfl (by decide) (by decide),
  .ofDigits ['4', '5'] (some []) .minute ['m'] rfl rfl (by decide) (by decide)]

theorem parse_longTerms :
    parse "-2h45.5m" = .ok (-9930000000000) ∧
    (∀ term ∈ wholeTerms, term.fraction.getD [] = []) ∧ total wholeTerms = 9900000000000 ∧
    Padding longTerms (longTerms.map fun term => term.padded 3) ∧
    parse "-0002h00045.5m" = .ok (-9930000000000) := by
  obtain ⟨haccepted, -, hwhole, hpadded⟩ := parse_eq_ok_iff
  have htotal : total longTerms = 9930000000000 := by decide +kernel
  have hlong : parse "-2h45.5m" = .ok (-9930000000000) := by
    refine (haccepted _ _).mpr ⟨.minus, _, _, ?_, @Denotes.sum longTerms (by decide), ?_, ?_⟩
    · decide
    · rw [htotal]
      decide
    · rw [htotal]
      rfl
  have hpadding : Padding longTerms (longTerms.map fun term => term.padded 3) :=
    .cons ⟨3, rfl⟩ (.cons ⟨3, rfl⟩ .nil)
  have hnone : ∀ term ∈ wholeTerms, term.fraction.getD [] = [] := by decide
  refine ⟨hlong, hnone, (hwhole wholeTerms hnone).trans (by decide), hpadding, ?_⟩
  exact (hpadded .minus longTerms _ _ hpadding).mpr hlong

end UsageReport.Duration
