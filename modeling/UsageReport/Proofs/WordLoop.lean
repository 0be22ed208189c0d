import UsageReport.Proofs.CheckedWords

/-!
The loop that reads a duration in words, turn by turn. A turn that goes on takes a term off the
text, two characters or more, and adds exactly what the term comes to. So the total before a turn
is the sum of the terms before it, the loop comes to an end, and what it ends with is what the
exact reading ends with.
-/

namespace UsageReport.Duration

open Text

theorem Term.two_le_length_text (term : Term) : 2 ≤ term.text.length := by
  have hname := List.length_pos_iff.mpr (TimeUnit.ne_nil_of_mem_names term.name_mem)
  have hnumber : 1 ≤ term.whole.length + (pointText term.fraction).length := by
    rcases term.exists_digit with hwhole | hfraction
    · have := List.length_pos_iff.mpr hwhole
      omega
    · cases hpoint : term.fraction with
      | none => exact absurd rfl (hpoint ▸ hfraction)
      | some digits => exact Nat.le_add_left_of_le (by simp [pointText])
  rw [text, List.length_append, List.length_append]
  omega

namespace Head

variable {head next : Head}

/-- What a turn comes to by exact numbers. -/
def exactTotal (head : Head) : Except Fault Nat := do
  let value ← (Group.split head.rest).1.nanoseconds
  inRange greatest (head.total.toNat + value)

theorem addTotal_agrees (head : Head) (value : UInt64) :
    Agrees IsWord (head.addTotal value) (inRange greatest (head.total.toNat + value.toNat)) := by
  have hgreatest : greatestTotal.toNat = greatest := toNat_ofNat greatest_le_greatestWord
  -- The greatest duration is a word, so that it alone decides what is in range.
  have hlimits : inRange greatest (head.total.toNat + value.toNat) =
      (inRange greatestWord (head.total.toNat + value.toNat) >>= inRange greatest) := by
    have hle := greatest_le_greatestWord
    by_cases hword : greatestWord < head.total.toNat + value.toNat
    · simp only [inRange, if_pos hword, if_pos (Nat.lt_of_le_of_lt hle hword)]
      rfl
    · simp only [inRange, if_neg hword]
      rfl
  rw [hlimits]
  refine (agrees_orRefuse rfl (map_addWords? _ _)).bind fun total number hnumber => ?_
  cases hnumber
  rw [inRange, ← hgreatest]
  simp only [UInt64.lt_iff_toNat_lt]
  split
  · exact .refused .sumBeyondGreatest (by decide)
  · exact .value rfl

/-- A turn in words is the exact turn. -/
theorem turn_agrees (head : Head) :
    Agrees (fun next total => next.rest = (Group.split head.rest).2 ∧ next.total.toNat = total)
      head.turn head.exactTotal := by
  obtain ⟨hwhole, hfraction⟩ := Group.isDigit_of_mem_split head.rest
  rw [turn, exactTotal, cutGroup_eq, Group.nanoseconds_eq]
  generalize Group.split head.rest = found at hwhole hfraction ⊢
  obtain ⟨group, rest⟩ := found
  split
  · exact .refused .noDigit (by decide)
  split
  · exact .refused .noUnit (by decide)
  cases hunit : TimeUnit.ofText? group.unit with
  | none =>
      simp only [bind, Except.bind, hunit]
      exact .refused (.unknownUnit group.unit) nofun
  | some unit =>
      have hturn := (Group.word_agrees hwhole hfraction unit).bind fun value number hnumber =>
        (hnumber ▸ head.addTotal_agrees value).bind fun total sum hsum =>
          show Agrees (fun (next : Head) total => next.rest = rest ∧ next.total.toNat = total)
            (pure ⟨rest, total⟩) (pure sum) from .value ⟨rfl, hsum⟩
      simp only [bind_pure] at hturn
      simp only [bind, Except.bind, hunit, orRefuse]
      exact hturn

theorem exactTotal_of_turn (hturn : head.turn = .ok next) :
    next.rest = (Group.split head.rest).2 ∧ head.exactTotal = .ok next.total.toNat := by
  have hagrees := head.turn_agrees
  generalize head.exactTotal = exact at hagrees ⊢
  rw [hturn] at hagrees
  cases hagrees with
  | value hrelated => exact ⟨hrelated.1, congrArg _ hrelated.2.symm⟩

/-- What a turn that goes on does: it takes a term, and the total stays in range. -/
theorem exists_term_of_turn (hturn : head.turn = .ok next) :
    ∃ term : Term, head.rest = term.text ++ next.rest ∧
      next.total.toNat = head.total.toNat + term.nanoseconds ∧
      next.total.toNat ≤ greatest := by
  obtain ⟨hrest, hexact⟩ := exactTotal_of_turn hturn
  rw [exactTotal] at hexact
  cases hvalue : (Group.split head.rest).1.nanoseconds with
  | error fault =>
      rw [hvalue] at hexact
      cases hexact
  | ok value =>
      rw [hvalue] at hexact
      obtain ⟨hsum, hle⟩ := inRange_eq_ok_iff.mp hexact
      obtain ⟨term, htext, rfl⟩ := Group.exists_term_of_nanoseconds hvalue
      exact ⟨term, hrest ▸ htext, hsum.symm, hle⟩

/-- A turn that stops is refused, for what is wrong with the term that its text starts with. -/
theorem exists_site_of_turn {stop : Stop} (hturn : head.turn = .error stop) :
    ∃ site, stop = .refused site ∧ site ≠ .unreadFraction ∧
      head.exactTotal = .error site.fault := by
  have hagrees := head.turn_agrees
  generalize head.exactTotal = exact at hagrees ⊢
  rw [hturn] at hagrees
  cases hagrees with
  | refused site hread => exact ⟨site, rfl, hread, rfl⟩

theorem refused_of_exactTotal {opening : Opening} {fault : Fault} (htext : opening.text = head.rest)
    (hexact : head.exactTotal = .error fault) : opening.Refused head.total.toNat fault := by
  rw [exactTotal, ← htext, opening.split_text] at hexact
  rw [Opening.refused_iff]
  cases hvalue : opening.group.nanoseconds with
  | error found =>
      rw [hvalue] at hexact
      exact .inl hexact
  | ok value =>
      rw [hvalue] at hexact
      change inRange greatest _ = _ at hexact
      rw [inRange] at hexact
      split at hexact
      · cases hexact
        exact .inr ⟨rfl, value, rfl, ‹_›⟩
      · cases hexact

/-- Only a group without digits is malformed. -/
theorem noDigit_of_malformed (hexact : head.exactTotal = .error .malformed) :
    (Group.split head.rest).1.whole = [] ∧ (Group.split head.rest).1.fraction = [] := by
  obtain ⟨opening, htext⟩ := exists_opening head.rest
  cases refused_of_exactTotal htext hexact with
  | noDigit hdigit =>
      rw [Opening.HasDigit, not_or, not_not, not_not] at hdigit
      rwa [← htext, opening.split_text]

/-- The loop ends before a turn, for want of text, or in it. -/
inductive Ends (head : Head) : Except Stop UInt64 → Prop where
  | done (hrest : head.rest = []) : Ends head (.ok head.total)
  | stopped {stop : Stop} (hrest : head.rest ≠ []) (hturn : head.turn = .error stop) :
      Ends head (.error stop)

end Head

/-- What the loop has after so many turns. -/
inductive Reaches (body : List Char) : Nat → Head → Prop where
  | start : Reaches body 0 (.start body)
  | turn {turns : Nat} {head next : Head} (hhead : Reaches body turns head)
      (hturn : head.turn = .ok next) : Reaches body (turns + 1) next

theorem total_append (first second : List Term) :
    total (first ++ second) = total first + total second := by
  rw [total, List.map_append, List.sum_append, total, total]

namespace Reaches

variable {body : List Char} {turns : Nat} {head : Head}

/-- Before every turn the total is the exact sum of the terms before it. -/
theorem exists_terms (hhead : Reaches body turns head) :
    ∃ terms : List Term, terms.length = turns ∧ body = terms.flatMap Term.text ++ head.rest ∧
      head.total.toNat = total terms := by
  induction hhead with
  | start => exact ⟨[], rfl, rfl, rfl⟩
  | turn hhead hturn ih =>
      obtain ⟨terms, hlength, hbody, htotal⟩ := ih
      obtain ⟨term, hrest, hsum, -⟩ := Head.exists_term_of_turn hturn
      refine ⟨terms ++ [term], ?_, ?_, ?_⟩
      · rw [List.length_append, hlength, List.length_singleton]
      · rw [hbody, hrest, List.flatMap_append, List.flatMap_singleton, List.append_assoc]
      · rw [hsum, htotal, total_append, total_cons]
        rfl

theorem total_le (hhead : Reaches body turns head) : head.total.toNat ≤ greatest := by
  cases hhead with
  | start => exact Nat.zero_le _
  | turn hhead hturn =>
      obtain ⟨-, -, -, hle⟩ := Head.exists_term_of_turn hturn
      exact hle

/-- Every turn has taken two characters or more. -/
theorem two_mul_le (hhead : Reaches body turns head) :
    2 * turns + head.rest.length ≤ body.length := by
  induction hhead with
  | start => simp [Head.start]
  | turn hhead hturn ih =>
      obtain ⟨term, hrest, -⟩ := Head.exists_term_of_turn hturn
      have hterm := term.two_le_length_text
      rw [hrest, List.length_append] at ih
      omega

/-- From every head the loop comes to an end. -/
theorem exists_last (hhead : Reaches body turns head) :
    ∃ more last, Reaches body more last ∧ last.Ends head.loop := by
  fun_induction Head.loop head generalizing turns with
  | case1 head hrest => exact ⟨turns, head, hhead, .done hrest⟩
  | case2 head hrest stop hturn => exact ⟨turns, head, hhead, .stopped hrest hturn⟩
  | case3 head hrest next hturn ih => exact ih (hhead.turn hturn)

end Reaches

theorem sumGroups_eq_bind {head : Head} (hrest : head.rest ≠ []) :
    sumGroups head.total.toNat head.rest =
      head.exactTotal >>= fun total => sumGroups total (Group.split head.rest).2 := by
  rw [sumGroups_of_ne_nil _ hrest, Head.exactTotal]
  cases (Group.split head.rest).1.nanoseconds with
  | error fault => rfl
  | ok value =>
      simp only [bind, Except.bind, inRange]
      split <;> rfl

/-- The loop ends with what the groups of the text come to. -/
theorem loop_agrees (head : Head) :
    Agrees IsWord head.loop (sumGroups head.total.toNat head.rest) := by
  fun_induction Head.loop head with
  | case1 head hrest =>
      rw [hrest, sumGroups]
      exact .value rfl
  | case2 head hrest stop hturn =>
      obtain ⟨site, rfl, hread, hexact⟩ := Head.exists_site_of_turn hturn
      rw [sumGroups_eq_bind hrest, hexact]
      exact .refused site hread
  | case3 head hrest next hturn ih =>
      obtain ⟨hnext, hexact⟩ := Head.exactTotal_of_turn hturn
      rw [sumGroups_eq_bind hrest, hexact, ← hnext]
      exact ih

/-- The text without its sign. -/
def body (text : String) : List Char := (splitSign text.toList).2

theorem readWords_agrees (text : String) :
    Agrees (fun word value => word ≠ Int64.minValue ∧ word.toInt = value) (readWords text)
      ((parse text).mapError Error.fault) := by
  unfold readWords parse
  obtain ⟨negative, rest⟩ := splitSign text.toList
  dsimp only
  split
  · cases negative <;> exact .value ⟨by decide, rfl⟩
  · exact .refused .emptyBody (by decide)
  · rename_i hzero hempty
    rw [magnitude_of_ne hzero hempty]
    have hloop := loop_agrees (.start rest)
    have hrange {value : Nat} := @exists_terms_of_sumGroups 0 rest value (Nat.zero_le _)
    change Agrees IsWord _ (sumGroups 0 rest) at hloop
    generalize sumGroups 0 rest = exact at hloop hrange
    generalize (Head.start rest).loop = outcome at hloop ⊢
    cases hloop with
    | refused site hread => exact .refused site hread
    | @value total number hnumber =>
        obtain ⟨-, -, -, hle⟩ := hrange rfl
        obtain ⟨word, hsigned, hne, hvalue⟩ := signed_eq (hnumber ▸ hle) negative
        simp only [bind, Except.bind, hsigned]
        refine .value ⟨hne, ?_⟩
        rw [hvalue, hnumber]

theorem parse_of_readWords {text : String} {word : Int64} (hword : readWords text = .ok word) :
    word ≠ Int64.minValue ∧ parse text = .ok word.toInt := by
  have hagrees := readWords_agrees text
  rw [hword] at hagrees
  cases hparse : parse text with
  | error error =>
      rw [hparse] at hagrees
      cases hagrees
  | ok value =>
      rw [hparse] at hagrees
      cases hagrees with
      | value hvalue =>
          obtain ⟨hne, rfl⟩ := hvalue
          exact ⟨hne, rfl⟩

theorem parse_of_readWords_error {text : String} {stop : Stop}
    (hstop : readWords text = .error stop) :
    ∃ site, stop = .refused site ∧ site ≠ .unreadFraction ∧
      parse text = .error ⟨site.fault, text⟩ := by
  have hagrees := readWords_agrees text
  rw [hstop] at hagrees
  cases hparse : parse text with
  | error error =>
      have htext := text_of_parse_error hparse
      rw [hparse] at hagrees
      generalize hfault : Except.mapError Error.fault (.error error) = exact at hagrees
      cases hagrees with
      | refused site hread =>
          obtain ⟨fault, found⟩ := error
          cases hfault
          obtain rfl : found = text := htext
          exact ⟨site, rfl, hread, rfl⟩
  | ok value =>
      rw [hparse] at hagrees
      cases hagrees

theorem signed_ne_refused (negative : Bool) (total : UInt64) (site : Site) :
    signed negative total ≠ .error (.refused site) := by
  unfold signed negateWord
  split_ifs <;> nofun

/-- A text is refused because it is empty or in a turn. -/
theorem loop_of_refused {text : String} {site : Site}
    (hrefused : readWords text = .error (.refused site)) :
    body text = [] ∨ (Head.start (body text)).loop = .error (.refused site) := by
  unfold readWords at hrefused
  unfold body
  generalize splitSign text.toList = parts at hrefused ⊢
  obtain ⟨negative, rest⟩ := parts
  dsimp only at hrefused ⊢
  split at hrefused
  · cases hrefused
  · exact .inl rfl
  · right
    cases hloop : (Head.start rest).loop with
    | error stop =>
        rw [hloop] at hrefused
        cases hrefused
        rfl
    | ok total =>
        rw [hloop] at hrefused
        exact absurd hrefused (signed_ne_refused negative total site)

/-- Reading in words ends as the exact reading does. Each turn of the loop that goes on takes two
characters or more, so there are at most half as many turns as characters. The total before a turn
is the exact sum of the terms before it and no greater than the greatest signed word. The fraction
digits that are kept are read, and they count in a power of ten of at most 10^18. A result is never
the least signed word. An error is never a trapped operation nor an unread fraction, and one for a
malformed text is owed to an empty text or to a group without digits. -/
theorem readWords_without_overflow (text : String) :
    (∃ turns last, Reaches (body text) turns last ∧ 2 * turns ≤ (body text).length ∧
      last.Ends (Head.start (body text)).loop) ∧
    (∀ turns head, Reaches (body text) turns head →
      (∃ terms : List Term, terms.length = turns ∧
        body text = terms.flatMap Term.text ++ head.rest ∧ head.total.toNat = total terms) ∧
      head.total.toNat ≤ 2 ^ 63 - 1 ∧
      (∀ next, head.turn = .ok next →
        ∃ taken, head.rest = taken ++ next.rest ∧ 2 ≤ taken.length) ∧
      ∀ group rest, cutGroup head.rest = .ok (group, rest) → group.fraction ≠ [] →
        ∃ kept count scale, Group.keptFraction group.fraction = .ok kept ∧
          readWord? kept = some count ∧ count.toNat = digitsValue kept ∧
          Group.scale kept = .ok scale ∧ scale.toNat = 10 ^ kept.length ∧
          scale.toNat ≤ 10 ^ 18) ∧
    (∀ word, readWords text = .ok word →
      word ≠ Int64.minValue ∧ parse text = .ok word.toInt) ∧
    ∀ stop, readWords text = .error stop →
      ∃ site, stop = .refused site ∧ site ≠ .unreadFraction ∧
        parse text = .error ⟨site.fault, text⟩ ∧
        (site.fault = .malformed → body text = [] ∨
          ∃ turns head, Reaches (body text) turns head ∧ head.rest ≠ [] ∧
            (Group.split head.rest).1.whole = [] ∧ (Group.split head.rest).1.fraction = []) := by
  obtain ⟨turns, last, hlast, hends⟩ := Reaches.exists_last (.start : Reaches (body text) 0 _)
  refine ⟨⟨turns, last, hlast, ?_, hends⟩, fun turns head hhead => ⟨hhead.exists_terms,
    hhead.total_le, fun next hturn => ?_, fun group rest hcut hfraction => ?_⟩,
    fun word => parse_of_readWords, fun stop hstop => ?_⟩
  · exact Nat.le_of_add_right_le hlast.two_mul_le
  · obtain ⟨term, hrest, -⟩ := Head.exists_term_of_turn hturn
    exact ⟨term.text, hrest, term.two_le_length_text⟩
  · obtain ⟨-, hdigits⟩ := Group.isDigit_of_mem_split head.rest
    rw [split_of_cutGroup hcut] at hdigits
    obtain ⟨count, hread, hcount⟩ := Group.readWord?_kept hdigits hfraction
    obtain ⟨scale, hscale, hpower⟩ := Group.scale_eq hdigits
    refine ⟨_, count, scale, Group.keptFraction_eq hdigits, hread, hcount, hscale, hpower, ?_⟩
    rw [hpower]
    exact Nat.pow_le_pow_right (by decide) (Group.length_take_keptDigits_le _)
  · obtain ⟨site, rfl, hread, hparse⟩ := parse_of_readWords_error hstop
    refine ⟨site, rfl, hread, hparse, fun hmalformed => ?_⟩
    rcases loop_of_refused hstop with hempty | hloop
    · exact .inl hempty
    · rw [hloop] at hends
      cases hends with
      | stopped hrest hturn =>
          obtain ⟨found, hsame, -, hexact⟩ := Head.exists_site_of_turn hturn
          cases hsame
          rw [hmalformed] at hexact
          exact .inr ⟨turns, last, hlast, hrest, Head.noDigit_of_malformed hexact⟩

/-- A nanosecond and nineteen nines bring the total to the greatest. -/
def brimText : String := "-9223372036854775805ns1.9999999999999999999ns"

/-- What the loop has before it reads the nines. -/
def brimHead : Head := ⟨"1.9999999999999999999ns".toList, 9223372036854775805⟩

def brimGroup : Group := ⟨['1'], List.replicate 19 '9', ['n', 's']⟩

/-- A lone point stands where a third number should be. -/
def pointedText : String := "+2h0045.5m."

theorem readWords_of_brimText :
    Reaches (body brimText) 1 brimHead ∧
    brimHead.turn = .ok ⟨[], 9223372036854775807⟩ ∧
    (∃ taken, brimHead.rest = taken ++ [] ∧ 2 ≤ taken.length) ∧
    cutGroup brimHead.rest = .ok (brimGroup, []) ∧ brimGroup.fraction ≠ [] ∧
    (∃ kept count scale, Group.keptFraction brimGroup.fraction = .ok kept ∧
      readWord? kept = some count ∧ count.toNat = digitsValue kept ∧
      Group.scale kept = .ok scale ∧ scale.toNat = 10 ^ kept.length ∧ scale.toNat ≤ 10 ^ 18) ∧
    readWords brimText = .ok (-9223372036854775807) ∧
    parse brimText = .ok (-9223372036854775807) ∧
    readWords pointedText = .error (.refused .noDigit) ∧
    parse pointedText = .error ⟨.malformed, pointedText⟩ ∧
    (body pointedText = [] ∨ ∃ turns head, Reaches (body pointedText) turns head ∧
      head.rest ≠ [] ∧ (Group.split head.rest).1.whole = [] ∧
      (Group.split head.rest).1.fraction = []) := by
  obtain ⟨-, hheads, hresult, -⟩ := readWords_without_overflow brimText
  obtain ⟨-, -, -, herror⟩ := readWords_without_overflow pointedText
  have hfirst : (Head.start (body brimText)).turn = .ok brimHead := by decide +kernel
  have hhead : Reaches (body brimText) 1 brimHead := .turn .start hfirst
  obtain ⟨-, -, htaken, hkept⟩ := hheads 1 brimHead hhead
  have hturn : brimHead.turn = .ok ⟨[], 9223372036854775807⟩ := by decide +kernel
  have hcut : cutGroup brimHead.rest = .ok (brimGroup, []) := by decide +kernel
  have hword : readWords brimText = .ok (-9223372036854775807) := by decide +kernel
  have hstop : readWords pointedText = .error (.refused .noDigit) := by decide +kernel
  obtain ⟨site, hsite, -, hparse, hmalformed⟩ := herror _ hstop
  cases hsite
  exact ⟨hhead, hturn, htaken _ hturn, hcut, by decide, hkept _ _ hcut (by decide), hword,
    (hresult _ hword).2, hstop, hparse, hmalformed rfl⟩

end UsageReport.Duration
