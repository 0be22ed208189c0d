import Mathlib.Order.Interval.Set.UnorderedInterval
import UsageReport.Proofs.Digits
import UsageReport.Proofs.Scanned

/-!
The tokens of a text that ends early. All tokens are the same up to the one in whose midst the text
ends. Of that one a stub is left: a word or a text that has ended, or a number of fewer digits.
-/

namespace UsageReport.Json

open Text

namespace Numeral

/-- An integer numeral. -/
def ofWhole (negative : Bool) (whole : List Char) : Numeral := ⟨negative, whole, none, none⟩

theorem eq_ofWhole_of_integer? {numeral : Numeral} {value : Int}
    (hvalue : numeral.integer? = some value) :
    numeral = ofWhole numeral.negative numeral.whole := by
  obtain ⟨negative, whole, fraction, exponent⟩ := numeral
  cases fraction <;> cases exponent <;> first | rfl | cases hvalue

theorem number?_eq_integer_iff {numeral : Numeral} {value : Int} :
    numeral.number? = some (.integer value) ↔ numeral.integer? = some value := by
  unfold number?
  split <;> simp_all

theorem scanUnsigned_whole {whole : List Char} (hwhole : IsWhole whole) (negative : Bool) :
    scanUnsigned negative whole = .ok (ofWhole negative whole, []) := by
  have hspelling : (ofWhole negative whole).UnsignedSpelling (whole ++ ([] ++ [])) :=
    .intro hwhole .none .none
  simpa [ofWhole] using scanUnsigned_append hspelling (clear_nil isPart)

theorem IsWhole.of_append {first more : List Char} (hwhole : IsWhole (first ++ more))
    (hfirst : first ≠ []) : IsWhole first := by
  obtain ⟨⟨-, hdigits⟩, hzero⟩ := hwhole
  refine ⟨⟨hfirst, fun c hc => hdigits c (List.mem_append_left more hc)⟩, fun hhead => ?_⟩
  have hall := hzero (by rw [List.head?_append, hhead]; rfl)
  obtain ⟨others, rfl⟩ := List.head?_eq_some_iff.mp hhead
  rw [List.cons_append] at hall
  injection hall with _ hnone
  rw [(List.append_eq_nil_iff.mp hnone).1]

theorem digitValue_pos {c : Char} (hc : c.isDigit = true) (hzero : c ≠ '0') :
    0 < digitValue c := by
  have hne : c.toNat ≠ '0'.toNat := fun heq => hzero (Char.toNat_inj.mp heq)
  simp only [Char.isDigit, Bool.and_eq_true, decide_eq_true_eq, ge_iff_le,
    UInt32.le_iff_toNat_le] at hc
  have hle : '0'.toNat ≤ c.toNat := hc.1
  simp only [digitValue]
  omega

theorem IsWhole.digitsValue_pos {first more : List Char} (hwhole : IsWhole (first ++ more))
    (hfirst : first ≠ []) (hpos : 0 < digitsValue (first ++ more)) : 0 < digitsValue first := by
  obtain ⟨c, others, rfl⟩ := List.exists_cons_of_ne_nil hfirst
  have hc : c ≠ '0' := by
    rintro rfl
    rw [hwhole.2 rfl] at hpos
    exact absurd hpos (by decide)
  have hdigit := digitValue_pos (hwhole.1.2 c List.mem_cons_self) hc
  have hle := le_digitsFrom (0 * 10 + digitValue c) others
  rw [← digitsFrom_zero, digitsFrom_cons]
  omega

/-- With fewer digits an integer is still one, and not farther from zero. -/
theorem exists_integer?_of_append {negative : Bool} {first more : List Char} {value : Int}
    (hwhole : IsWhole (first ++ more)) (hfirst : first ≠ [])
    (hvalue : (ofWhole negative (first ++ more)).integer? = some value) :
    ∃ stub, (ofWhole negative first).integer? = some stub ∧ stub ∈ Set.uIcc 0 value := by
  have hle : digitsValue first ≤ digitsValue (first ++ more) := by
    rw [digitsValue_append]
    exact le_digitsFrom _ _
  cases negative with
  | false =>
      change (if digitsValue (first ++ more) ≤ greatestWord then
        some (digitsValue (first ++ more) : Int) else none) = some value at hvalue
      obtain ⟨hbound, hvalue⟩ := Option.ite_none_right_eq_some.mp hvalue
      cases hvalue
      refine ⟨digitsValue first, if_pos (Nat.le_trans hle hbound), ?_⟩
      rw [Set.mem_uIcc]
      omega
  | true =>
      change (if 0 < digitsValue (first ++ more) && digitsValue (first ++ more) ≤ Nat.pow 2 63 then
        some (-(digitsValue (first ++ more) : Int)) else none) = some value at hvalue
      obtain ⟨hbound, hvalue⟩ := Option.ite_none_right_eq_some.mp hvalue
      cases hvalue
      rw [Bool.and_eq_true, decide_eq_true_eq, decide_eq_true_eq] at hbound
      have hpos := hwhole.digitsValue_pos hfirst hbound.1
      have hfits : (0 < digitsValue first && digitsValue first ≤ Nat.pow 2 63) = true := by
        rw [Bool.and_eq_true, decide_eq_true_eq, decide_eq_true_eq]
        exact ⟨hpos, Nat.le_trans hle hbound.2⟩
      refine ⟨-(digitsValue first : Int), if_pos hfits, ?_⟩
      rw [Set.mem_uIcc]
      omega

end Numeral

namespace Quotation

theorem utf8Size_of_hexValue? {c : Char} (hc : (hexValue? c).isSome = true) : c.utf8Size = 1 := by
  rw [Char.utf8Size_eq_one_iff]
  unfold hexValue? at hc
  split at hc
  · rename_i hdigit
    simp only [Char.isDigit, Bool.and_eq_true, decide_eq_true_eq] at hdigit
    exact UInt32.le_trans hdigit.2 (by decide)
  · split at hc
    · rename_i hlower
      exact UInt32.le_trans hlower.2 (by decide)
    · split at hc
      · rename_i hupper
        exact UInt32.le_trans hupper.2 (by decide)
      · cases hc

theorem byteCount_of_hexValue? {digits : List Char}
    (hdigits : ∀ c ∈ digits, (hexValue? c).isSome = true) : byteCount digits = digits.length := by
  induction digits with
  | nil => rfl
  | cons c digits ih =>
      obtain ⟨hc, hrest⟩ := List.forall_mem_cons.mp hdigits
      have hsize : c.utf8Size = 1 := utf8Size_of_hexValue? hc
      rw [byteCount, hsize, ih hrest, List.length_cons, Nat.add_comm]

theorem hexValue?_of_unit? {a b c d : Char} {code : Nat} (hcode : unit? a b c d = some code) :
    ∀ digit ∈ [a, b, c, d], (hexValue? digit).isSome = true := by
  simp only [unit?, bind, Option.bind_eq_some_iff] at hcode
  obtain ⟨_, ha, _, hb, _, hc, _, hd, -⟩ := hcode
  simp [ha, hb, hc, hd]

theorem scan_unit_of_short {digits : List Char} (hshort : digits.length < 4)
    (hdigits : ∀ c ∈ digits, (hexValue? c).isSome = true) :
    scan ('\\' :: 'u' :: digits) = ([], .error .ended) := by
  have hended : unitFailure digits = .ended := by
    rw [unitFailure, List.take_of_length_le (Nat.le_of_lt hshort),
      byteCount_of_hexValue? hdigits, if_pos hshort]
  rw [scan, hended]
  rintro a b c d rest rfl
  simp only [List.length_cons] at hshort
  omega

/-- The text ends among the pieces, before a closing mark. -/
def EndsAmong (text : List Char) (pieces : List Piece) : Prop :=
  ∃ first, scan text = (first, .error .ended) ∧ first <+: pieces

theorem endsAmong_of_scan {text : List Char} (hscan : scan text = ([], .error .ended))
    (pieces : List Piece) : EndsAmong text pieces :=
  ⟨[], hscan, List.nil_prefix⟩

theorem EndsAmong.prepend {text rest : List Char} {piece : Piece} {pieces : List Piece}
    (hrest : EndsAmong rest pieces) (hscan : scan text = Quotation.prepend piece (scan rest)) :
    EndsAmong text (piece :: pieces) := by
  obtain ⟨first, hfirst, hpieces⟩ := hrest
  refine ⟨piece :: first, ?_, List.cons_prefix_cons.mpr ⟨rfl, hpieces⟩⟩
  rw [hscan, hfirst]
  rfl

theorem endsAmong_of_spelling {pieces : List Piece} {body : List Char}
    (hspelling : Spelling pieces body) :
    ∀ {text more : List Char}, body = text ++ more → EndsAmong text pieces := by
  induction hspelling with
  | nil =>
      intro text more hbody
      rw [(List.append_eq_nil_iff.mp hbody.symm).1]
      exact endsAmong_of_scan rfl _
  | @plain c pieces body hvisible hmark hescape _ ih =>
      intro text more hbody
      cases text with
      | nil => exact endsAmong_of_scan rfl _
      | cons first text =>
          injection hbody with hc hbody
          subst hc
          exact (ih hbody).prepend (scan_plain _ hvisible hmark hescape)
  | @escape letter c pieces body hletter _ ih =>
      intro text more hbody
      rcases text with _ | ⟨slash, _ | ⟨second, text⟩⟩
      · exact endsAmong_of_scan rfl _
      · cases hbody
        exact endsAmong_of_scan rfl _
      · simp only [List.cons_append, List.cons.injEq] at hbody
        obtain ⟨rfl, rfl, hbody⟩ := hbody
        exact (ih hbody).prepend (scan_escape _ hletter)
  | @unit a b c d code pieces body hcode _ ih =>
      intro text more hbody
      rcases text with _ | ⟨slash, _ | ⟨second, digits⟩⟩
      · exact endsAmong_of_scan rfl _
      · cases hbody
        exact endsAmong_of_scan rfl _
      · simp only [List.cons_append, List.cons.injEq] at hbody
        obtain ⟨rfl, rfl, hbody⟩ := hbody
        have hfour : [a, b, c, d] <+: digits ++ more := ⟨body, hbody⟩
        have hdigits : digits <+: digits ++ more := List.prefix_append digits more
        -- Of the four digits either some are missing, or the text ends only after them.
        rcases Nat.lt_or_ge digits.length 4 with hshort | hlong
        · have hpart := List.prefix_of_prefix_length_le hdigits hfour (Nat.le_of_lt hshort)
          refine endsAmong_of_scan (scan_unit_of_short hshort fun digit hdigit => ?_) _
          exact hexValue?_of_unit? hcode digit (hpart.subset hdigit)
        · obtain ⟨text, rfl⟩ := List.prefix_of_prefix_length_le hfour hdigits hlong
          have hrest : body = text ++ more := by simpa using hbody
          refine (ih hrest).prepend ?_
          simp only [List.cons_append, List.nil_append, scan, hcode]

theorem join_unit (code : Nat) (rest : List Piece) :
    join (.unit code :: rest) =
      if isTrailing code then none
      else if isLeading code then
        match rest with
        | .unit next :: rest =>
          if isTrailing next then (join rest).map (pairCharacter code next :: ·) else none
        | _ => none
      else (join rest).map (Char.ofNat code :: ·) :=
  join.eq_def _

theorem join_append_of_hasLoneSurrogate {pieces : List Piece}
    (hlone : hasLoneSurrogate pieces = true) (more : List Piece) :
    join (pieces ++ more) = none := by
  fun_induction hasLoneSurrogate pieces with
  | case1 | case4 => cases hlone
  | case2 c rest ih => simp [join, ih hlone]
  | case3 code rest htrailing => exact (join_unit code (rest ++ more)).trans (if_pos htrailing)
  | case5 code hcode hleading next rest ih =>
      cases hnext : isTrailing next with
      | false => simp [join, hcode, hleading, hnext]
      | true =>
          rw [hnext] at hlone
          simp [join, hcode, hleading, hnext, ih hlone]
  | case6 code hcode hleading => simp [join, hcode, hleading]
  | case7 code rest hcode hleading ih =>
      rw [List.cons_append, join_unit, if_neg hcode, if_neg hleading, ih hlone]
      rfl

/-- A text that ends within a quotation has ended for every reader, if the quotation is a text. -/
theorem read_of_spelling_append {pieces : List Piece} {text more : List Char} {value : List Char}
    (hspelling : Spelling pieces (text ++ more)) (hvalue : join pieces = some value) :
    read text = .error ⟨.ended, some .ended⟩ := by
  obtain ⟨first, hscan, others, rfl⟩ := endsAmong_of_spelling hspelling rfl
  have hlone : hasLoneSurrogate first = false := by
    cases hcase : hasLoneSurrogate first with
    | false => rfl
    | true =>
        rw [join_append_of_hasLoneSurrogate hcase] at hvalue
        cases hvalue
  simp [read, hscan, hlone]

end Quotation

namespace Token

/-- The token stands for a value that any reader of text or of integers may want. -/
def isPlain : Token → Bool
  | .broken _ | .brokenText _ | .text none | .number none | .number (some (.real _)) => false
  | _ => true

/-- What is read where the text ends in the midst of a token. -/
inductive IsStub : Token → Token → Prop
  | null : IsStub (.broken (.final .ended)) .null
  | flag {value : Bool} : IsStub (.broken (.final .ended)) (.flag value)
  | number {value : Int} : IsStub (.broken Numeral.cutShort) (.number (some (.integer value)))
  | digits {stub value : Int} (hstub : stub ∈ Set.uIcc 0 value) :
      IsStub (.number (some (.integer stub))) (.number (some (.integer value)))
  | text {value : String} : IsStub (.brokenText (.final .ended)) (.text (some value))

theorem isBroken_of_isPlain {token : Token} (htoken : token.isPlain = true) :
    token.isBroken = false := by
  cases token <;> first | rfl | cases htoken

theorem ofWord_of_append {word text more : List Char} (hword : word = text ++ more)
    (hmore : more ≠ []) (token : Token) :
    ofWord token word text = (.broken (.final .ended), []) := by
  have htake : takeWord word text = .error .ended := by
    induction text generalizing word with
    | nil =>
        obtain ⟨letter, others, rfl⟩ := List.exists_cons_of_ne_nil hmore
        rw [hword]
        rfl
    | cons c text ih =>
        rw [hword, List.cons_append, takeWord, if_pos rfl]
        exact ih rfl
  rw [ofWord, htake]

theorem ofNumeral_of_append {numeral : Numeral} {text more : List Char} {value : Int}
    (hspelling : numeral.UnsignedSpelling (text ++ more))
    (hvalue : numeral.integer? = some value) :
    ∃ stub, ofNumeral numeral.negative text = (stub, []) ∧
      stub.IsStub (.number (some (.integer value))) := by
  by_cases htext : text = []
  · subst htext
    exact ⟨_, rfl, .number⟩
  · have hnumeral := Numeral.eq_ofWhole_of_integer? hvalue
    have hwhole : Numeral.IsWhole (text ++ more) ∧ numeral.whole = text ++ more := by
      generalize hunsigned : text ++ more = unsigned at hspelling
      obtain ⟨hwhole, hfraction, hexponent⟩ := hspelling
      rw [hnumeral] at hfraction hexponent
      cases hfraction
      cases hexponent
      rw [List.append_nil, List.append_nil] at hunsigned ⊢
      exact ⟨hwhole, rfl⟩
    rw [hnumeral, hwhole.2] at hvalue
    obtain ⟨stub, hstub, hbetween⟩ :=
      Numeral.exists_integer?_of_append hwhole.1 htext hvalue
    refine ⟨.number (some (.integer stub)), ?_, .digits hbetween⟩
    simp only [ofNumeral, Numeral.scanUnsigned_whole (hwhole.1.of_append htext),
      Numeral.number?_eq_integer_iff.mpr hstub]

theorem read_numeral_of_append {numeral : Numeral} {c : Char} {text more : List Char} {value : Int}
    (hspelling : numeral.Spelling (c :: (text ++ more)))
    (hvalue : numeral.integer? = some value) :
    ∃ stub, read c text = (stub, []) ∧ stub.IsStub (.number (some (.integer value))) := by
  obtain ⟨unsigned, hunsigned, hwhole⟩ : ∃ unsigned, numeral.UnsignedSpelling unsigned ∧
      c :: (text ++ more) = Numeral.minusText numeral.negative ++ unsigned := by
    generalize hall : c :: (text ++ more) = whole at hspelling
    cases hspelling with
    | intro hunsigned => exact ⟨_, hunsigned, rfl⟩
  cases hnegative : numeral.negative with
  | true =>
      rw [hnegative] at hwhole
      change c :: (text ++ more) = '-' :: unsigned at hwhole
      injection hwhole with hc htext
      subst hc
      rw [← htext] at hunsigned
      have hstub := ofNumeral_of_append hunsigned hvalue
      rwa [hnegative] at hstub
  | false =>
      rw [hnegative] at hwhole
      obtain ⟨first, digits, hhead, hdigit⟩ := hunsigned.head
      rw [hhead] at hwhole hunsigned
      injection hwhole with hc htext
      subst hc
      rw [← htext, ← List.cons_append] at hunsigned
      have hstub := ofNumeral_of_append hunsigned hvalue
      rwa [hnegative, ← read_of_isDigit text hdigit] at hstub

/-- What is read of a token in whose midst the text ends. -/
theorem read_of_append {token : Token} {c : Char} {text more : List Char}
    (hspelling : Spelling token (c :: (text ++ more))) (hplain : token.isPlain = true)
    (hmore : more ≠ []) : ∃ stub, read c text = (stub, []) ∧ stub.IsStub token := by
  generalize hwhole : c :: (text ++ more) = whole at hspelling
  cases hspelling with
  | openList | closeList | openRecord | closeRecord | comma | colon =>
      injection hwhole with _ hnone
      exact absurd (List.append_eq_nil_iff.mp hnone).2 hmore
  | null =>
      injection hwhole with hc hword
      subst hc
      exact ⟨_, ofWord_of_append hword.symm hmore _, .null⟩
  | trueFlag | falseFlag =>
      injection hwhole with hc hword
      subst hc
      exact ⟨_, ofWord_of_append hword.symm hmore _, .flag⟩
  | @text pieces body hbody =>
      injection hwhole with hc htext
      subst hc
      cases hvalue : Quotation.join pieces with
      | none => rw [hvalue] at hplain; cases hplain
      | some value =>
          -- What is cut off has the closing mark at its end.
          obtain ⟨others, hothers⟩ : ∃ others, body = text ++ others := by
            rcases List.eq_nil_or_concat more with rfl | ⟨others, mark, rfl⟩
            · exact absurd rfl hmore
            · rw [List.concat_eq_append, ← List.append_assoc] at htext
              exact ⟨others, (List.append_inj' htext rfl).1.symm⟩
          rw [hothers] at hbody
          refine ⟨.brokenText (.final .ended), ?_, .text⟩
          change ofQuotation text = _
          rw [ofQuotation, Quotation.read_of_spelling_append hbody hvalue]
          rfl
  | @number numeral _ hnumeral =>
      subst hwhole
      cases hnumber : numeral.number? with
      | none => rw [hnumber] at hplain; cases hplain
      | some number =>
          cases number with
          | real value => rw [hnumber] at hplain; cases hplain
          | integer value =>
              exact read_numeral_of_append hnumeral (Numeral.number?_eq_integer_iff.mp hnumber)

/-- The tokens that a text has kept that ends before its last token does. -/
inductive Cut : List Token → List Token → Prop
  | ended {token : Token} {rest : List Token} : Cut [] (token :: rest)
  | stub {stub token : Token} {rest : List Token} (hstub : stub.IsStub token) :
      Cut [stub] (token :: rest)
  | cons {token : Token} {cut whole : List Token} (hcut : Cut cut whole) :
      Cut (token :: cut) (token :: whole)

theorem cut_scan {text rest : List Char}
    (hplain : ∀ token ∈ scan (text ++ rest), token.isPlain = true)
    (hrest : ∃ c ∈ rest, isSpace c = false) : Cut (scan text) (scan (text ++ rest)) := by
  fun_induction scan text with
  | case1 =>
      obtain ⟨token, tokens, hscan⟩ := List.exists_cons_of_ne_nil (scan_ne_nil hrest)
      rw [List.nil_append, hscan]
      exact .ended
  | case2 c text hspace ih =>
      rw [List.cons_append, scan, if_pos hspace] at hplain ⊢
      exact ih hplain
  | case3 c text hspace ih =>
      rw [List.cons_append, scan, if_neg hspace] at hplain ⊢
      obtain ⟨hfirst, hothers⟩ := List.forall_mem_cons.mp hplain
      have hfound : read c (text ++ rest) =
        ((read c (text ++ rest)).1, (read c (text ++ rest)).2) := rfl
      obtain ⟨spelling, hspelling, hsplit, hdigit⟩ :=
        spelling_of_read hfound (isBroken_of_isPlain hfirst)
      rw [← List.cons_append] at hsplit
      by_cases hinside : ∃ more, more ≠ [] ∧ spelling = c :: (text ++ more)
      · obtain ⟨more, hmore, rfl⟩ := hinside
        obtain ⟨stub, hread, hstub⟩ := read_of_append hspelling hfirst hmore
        rw [hread, scan]
        exact .stub hstub
      · obtain ⟨after, htext, hafter⟩ : ∃ after, c :: text = spelling ++ after ∧
            (read c (text ++ rest)).2 = after ++ rest := by
          rcases List.append_eq_append_iff.mp hsplit with ⟨more, hlong, hmore⟩ | hshort
          · obtain rfl : more = [] := by_contra fun hne => hinside ⟨more, hne, hlong⟩
            exact ⟨[], by simp [hlong], hmore.symm⟩
          · exact hshort
        have hread : read c text = ((read c (text ++ rest)).1, after) := by
          refine (read_of_spelling hspelling htext fun hnumber => ?_).2
          have hclear := clear_of_scan (hdigit hnumber)
            fun token htoken => isBroken_of_isPlain (hothers token htoken)
          rw [hafter] at hclear
          exact hclear.of_append
        rw [hafter] at hothers ⊢
        rw [hread] at ih ⊢
        exact .cons (ih hothers)

end Token

end UsageReport.Json
