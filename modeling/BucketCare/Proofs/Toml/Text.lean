import BucketCare.Toml.Text

/-!
# Texts are read as they were written

A text is written in one of four forms, by the quotation marks, backslashes, line feeds and controls
that it holds, and whichever form that is, the reader gives the text back and stops right behind it.

In the forms over several lines the reader takes quotation marks in a row at once, and tells those
of the text from those that end it by their number. What keeps the two apart is that the written
body never has more than two of them in a row, the marks right before its end included.

## Main definitions

* `BlockBody` — how a body over several lines writes a text

## Main results

* `readEscape_of_escape?`, `isPlain_of_escape?` — what is escaped, and what need not be
* `BlockBody.readLines_eq` — a body over several lines is read as its text
* `readText_writeText` — every text is read as it was written
-/

namespace BucketCare.Toml

/-! ## Escapes -/

/-- A character without an escape stands for itself. -/
theorem isPlain_of_escape? {c : Char} (h : escape? c = none) :
    isPlain c = true ∧ c ≠ '\\' ∧ c ≠ double := by
  unfold escape? at h
  split at h
  all_goals try cases h
  next hbackslash =>
    split at h
    · cases h
    · next hdouble =>
      split at h
      · cases h
      · next hcontrol =>
        refine ⟨?_, hbackslash, hdouble⟩
        simp only [isPlain]
        simp
        omega

@[simp] theorem charOf?_toNat (c : Char) : charOf? c.toNat = some c := by
  have hvalid : c.toNat.isValidChar := c.valid
  rw [charOf?, if_pos hvalid, Char.ofNat_toNat]

/-- The four digits of a character's number stand for the character. -/
theorem readCode_fourHex {c : Char} (h : c.toNat < 128) (rest : List Char) :
    readCode 4 (fourHex c.toNat ++ rest) = some (c, rest) := by
  have hdigits : ∀ n : Fin 128, (fourHex n).all isHexDigit = true ∧
      digitsValue 16 (fourHex n) = n := by decide
  obtain ⟨hall, hvalue⟩ := hdigits ⟨c.toNat, h⟩
  have hlength : (fourHex c.toNat).length = 4 := rfl
  have htake : (fourHex c.toNat ++ rest).take 4 = fourHex c.toNat := List.take_left' hlength
  have hdrop : (fourHex c.toNat ++ rest).drop 4 = rest := List.drop_left' hlength
  simp [readCode, htake, hdrop, hlength, hall, hvalue]

/-- What is written for an escaped character is read as the character. -/
theorem readEscape_of_escape? {c : Char} {written : List Char} (h : escape? c = some written) :
    ∃ behind, written = '\\' :: behind ∧ ∀ rest,
      readEscape (behind ++ rest) = some (c, rest) ∧ skipBreak? (behind ++ rest) = none := by
  unfold escape? at h
  split at h
  -- The characters with an escape of one letter; what is left is the mark and the other controls.
  all_goals try (cases h; exact ⟨_, rfl, fun _ => ⟨rfl, rfl⟩⟩)
  split at h
  · next hdouble =>
    cases h
    subst hdouble
    exact ⟨_, rfl, fun _ => ⟨rfl, rfl⟩⟩
  · split at h
    · next hcontrol =>
      cases h
      refine ⟨'u' :: fourHex c.toNat, rfl, fun rest => ⟨?_, rfl⟩⟩
      exact readCode_fourHex (by omega) rest
    · cases h

/-! ## On one line -/

/-- A body with escapes is read as its text. -/
theorem readBasic_basicBody {cs rest : List Char} {fuel : Nat}
    (hfuel : (basicBody cs).length < fuel) :
    readBasic fuel (basicBody cs ++ double :: rest) = some (cs, rest) := by
  induction cs generalizing fuel with
  | nil =>
    obtain ⟨fuel, rfl⟩ := Nat.exists_eq_add_one.mpr (Nat.zero_lt_of_lt hfuel)
    rfl
  | cons c cs ih =>
    obtain ⟨fuel, rfl⟩ := Nat.exists_eq_add_one.mpr (Nat.zero_lt_of_lt hfuel)
    have hbody : basicBody (c :: cs) = (escape? c).getD [c] ++ basicBody cs := List.flatMap_cons
    rw [hbody, List.length_append] at hfuel
    rw [hbody, List.append_assoc]
    cases hescape : escape? c with
    | none =>
      obtain ⟨hplain, hbackslash, hdouble⟩ := isPlain_of_escape? hescape
      have hrest : (basicBody cs).length < fuel := by
        simp [hescape] at hfuel
        omega
      simp [readBasic, hdouble, hbackslash, hplain, ih hrest]
    | some written =>
      obtain ⟨behind, rfl, hread⟩ := readEscape_of_escape? hescape
      have hrest : (basicBody cs).length < fuel := by
        simp [hescape] at hfuel
        omega
      have hdouble : '\\' ≠ double := by decide
      simp [readBasic, hdouble, (hread _).1, ih hrest]

/-- A body without escapes is its own text. -/
theorem readLiteral_eq {cs rest : List Char} (hplain : ∀ c ∈ cs, isPlain c = true)
    (hmark : single ∉ cs) : readLiteral (cs ++ single :: rest) = some (cs, rest) := by
  induction cs with
  | nil => rfl
  | cons c cs ih =>
    obtain ⟨hc, hcs⟩ := List.forall_mem_cons.mp hplain
    obtain ⟨hne, hnone⟩ := not_or.mp (mt List.mem_cons.mpr hmark)
    simp [readLiteral, Ne.symm hne, hc, ih hcs hnone]

/-- A text on one line is not taken for one over several lines, unless it is empty and another mark
follows. -/
theorem readText_eq_readLine {mark : Char} {body rest : List Char} (hbody : body.head? ≠ some mark)
    (hrest : rest.head? ≠ some mark) :
    readText (mark :: (body ++ mark :: rest)) = readLine (mark :: (body ++ mark :: rest)) := by
  -- Three marks at the head would make the body empty and put a mark behind the text.
  have hfewer : ∀ {a b : Char} {tail : List Char}, body ++ mark :: rest = a :: b :: tail →
      ¬ ((mark = double ∨ mark = single) ∧ mark = a ∧ a = b) := by
    rintro a b tail heq ⟨-, rfl, rfl⟩
    cases body with
    | nil => simp_all
    | cons c body => simp_all
  cases htail : body ++ mark :: rest with
  | nil => rfl
  | cons a tail =>
    cases tail with
    | nil => rfl
    | cons b tail => exact if_neg (hfewer htail)

theorem head?_basicBody (cs : List Char) : (basicBody cs).head? ≠ some double := by
  cases cs with
  | nil => simp [basicBody]
  | cons c cs =>
    have hbody : basicBody (c :: cs) = (escape? c).getD [c] ++ basicBody cs := List.flatMap_cons
    rw [hbody]
    cases hescape : escape? c with
    | none => simpa using (isPlain_of_escape? hescape).2.2
    | some written =>
      obtain ⟨behind, rfl, -⟩ := readEscape_of_escape? hescape
      have hdouble : '\\' ≠ double := by decide
      simpa using hdouble

/-- A text on one line with escapes is read as it was written. -/
theorem readText_basic (cs : List Char) {rest : List Char} (hrest : rest.head? ≠ some double) :
    readText (double :: (basicBody cs ++ double :: rest)) = some (String.ofList cs, rest) := by
  have hfuel : (basicBody cs).length < (basicBody cs ++ double :: rest).length + 1 := by
    rw [List.length_append]
    omega
  rw [readText_eq_readLine (head?_basicBody cs) hrest, readLine, if_pos rfl,
    readBasic_basicBody hfuel]
  rfl

/-- A text on one line without escapes is read as it was written. -/
theorem readText_literal {cs rest : List Char} (hplain : ∀ c ∈ cs, isPlain c = true)
    (hmark : single ∉ cs) (hrest : rest.head? ≠ some single) :
    readText (single :: (cs ++ single :: rest)) = some (String.ofList cs, rest) := by
  have hhead : cs.head? ≠ some single := fun h => hmark (List.mem_of_head? h)
  have hdouble : single ≠ double := by decide
  rw [readText_eq_readLine hhead hrest, readLine, if_neg hdouble, if_pos rfl,
    readLiteral_eq hplain hmark]
  rfl

/-! ## Over several lines -/

/-- How a body over several lines writes a text, where `run` marks stand right before it. Marks
stand as they are, but no three of them in a row; so do line feeds, and characters that are plain
and begin no escape. -/
inductive BlockBody (mark : Char) (escapes : Bool) : (run : Nat) → (text body : List Char) → Prop
  | nil {run : Nat} : BlockBody mark escapes run [] []
  | mark {run : Nat} {text body : List Char} (hrun : run < 2)
      (hrest : BlockBody mark escapes (run + 1) text body) :
      BlockBody mark escapes run (mark :: text) (mark :: body)
  | line {run : Nat} {text body : List Char} (hrest : BlockBody mark escapes 0 text body) :
      BlockBody mark escapes run ('\n' :: text) ('\n' :: body)
  | plain {run : Nat} {c : Char} {text body : List Char} (hplain : isPlain c = true)
      (hmark : c ≠ mark) (hescape : escapes = true → c ≠ '\\')
      (hrest : BlockBody mark escapes 0 text body) :
      BlockBody mark escapes run (c :: text) (c :: body)
  | escape {run : Nat} {c : Char} {written text body : List Char} (hescapes : escapes = true)
      (hwritten : escape? c = some written) (hrest : BlockBody mark escapes 0 text body) :
      BlockBody mark escapes run (c :: text) (written ++ body)

theorem marks_replicate {mark : Char} {n : Nat} {rest : List Char} (h : rest.head? ≠ some mark) :
    marks mark (List.replicate n mark ++ rest) = (n, rest) := by
  have hrest : rest.takeWhile (· == mark) = [] ∧ rest.dropWhile (· == mark) = rest := by
    cases rest with
    | nil => exact ⟨rfl, rfl⟩
    | cons c rest =>
      have hc : (c == mark) = false := by simpa using h
      simp [hc]
  rw [marks, List.takeWhile_append_of_pos (by simp), List.dropWhile_append_of_pos (by simp),
    hrest.1, hrest.2]
  simp

section ReadLines

variable {mark : Char} {escapes : Bool} {run fuel : Nat} {text body tail rest : List Char}

/-- Marks in a row are read at once. -/
theorem readLines_marks {n : Nat} (h : tail.head? ≠ some mark) :
    readLines mark escapes (fuel + 1) (List.replicate (n + 1) mark ++ tail) =
      (innerMarks (n + 1)).bind fun (inside, goesOn) =>
        if goesOn then (readLines mark escapes fuel tail).map fun (text, rest) =>
          (List.replicate inside mark ++ text, rest)
        else some (List.replicate inside mark, tail) := by
  have hmarks : marks mark (mark :: (List.replicate n mark ++ tail)) = (n + 1, tail) := by
    simpa [List.replicate_succ] using marks_replicate (n := n + 1) h
  rw [List.replicate_succ, List.cons_append, readLines]
  simp only [if_true, hmarks]
  cases innerMarks (n + 1) with
  | none => rfl
  | some marks =>
    obtain ⟨inside, goesOn⟩ := marks
    cases goesOn with
    | false => rfl
    | true => cases readLines mark escapes fuel tail <;> rfl

/-- Up to two marks are part of the text, when it goes on behind them. -/
theorem readLines_run (hrun : run ≤ 2) (hhead : tail.head? ≠ some mark)
    (htail : ∀ fuel, tail.length < fuel → readLines mark escapes fuel tail = some (text, rest))
    (hfuel : run + tail.length < fuel) :
    readLines mark escapes fuel (List.replicate run mark ++ tail) =
      some (List.replicate run mark ++ text, rest) := by
  cases run with
  | zero => exact htail fuel (by omega)
  | succ n =>
    obtain ⟨fuel, rfl⟩ := Nat.exists_eq_add_one.mpr (Nat.zero_lt_of_lt hfuel)
    have hinside : innerMarks (n + 1) = some (n + 1, true) := if_pos (by omega)
    simp [readLines_marks hhead, hinside, htail fuel (by omega)]

/-- A character that is not written with a mark first is read behind up to two marks. -/
theorem readLines_char {c d : Char} (behind : List Char) (hrun : run ≤ 2) (hmark : d ≠ mark)
    (hread : ∀ fuel, readLines mark escapes (fuel + 1) (d :: (behind ++ tail)) =
      (readLines mark escapes fuel tail).map fun (text, rest) => (c :: text, rest))
    (htail : ∀ fuel, tail.length < fuel → readLines mark escapes fuel tail = some (text, rest))
    (hfuel : run + (d :: (behind ++ tail)).length < fuel) :
    readLines mark escapes fuel (List.replicate run mark ++ d :: (behind ++ tail)) =
      some (List.replicate run mark ++ c :: text, rest) := by
  refine readLines_run hrun (by simpa using hmark) ?_ hfuel
  intro fuel hlength
  obtain ⟨fuel, rfl⟩ := Nat.exists_eq_add_one.mpr (Nat.zero_lt_of_lt hlength)
  have hless : tail.length < fuel := by
    rw [List.length_cons, List.length_append] at hlength
    omega
  rw [hread, htail fuel hless]
  rfl

/-- Three marks end a text, and up to two before them are part of it. -/
theorem readLines_end (hrun : run ≤ 2) (hrest : rest.head? ≠ some mark) (hfuel : 0 < fuel) :
    readLines mark escapes fuel (List.replicate run mark ++ mark :: mark :: mark :: rest) =
      some (List.replicate run mark, rest) := by
  obtain ⟨fuel, rfl⟩ := Nat.exists_eq_add_one.mpr hfuel
  have hmarks : List.replicate run mark ++ mark :: mark :: mark :: rest =
      List.replicate (run + 2 + 1) mark ++ rest := by
    simp [List.replicate_succ']
  have hinside : innerMarks (run + 2 + 1) = some (run, false) := by
    rw [innerMarks, if_neg (by omega), if_pos (by omega)]
    rfl
  rw [hmarks, readLines_marks hrest, hinside]
  rfl

theorem lineEnd?_of_isPlain {c : Char} (h : isPlain c = true) : lineEnd? (c :: rest) = none := by
  have hfeed : c ≠ '\n' := by rintro rfl; simp [isPlain] at h
  have hreturn : c ≠ '\r' := by rintro rfl; simp [isPlain] at h
  unfold lineEnd?
  split <;> simp_all

/-- A body over several lines is read as its text, up to the marks that end it. -/
theorem BlockBody.readLines_eq (h : BlockBody mark escapes run text body)
    (hmark : mark ≠ '\n' ∧ mark ≠ '\\') (hrun : run ≤ 2) (hrest : rest.head? ≠ some mark)
    (fuel : Nat) (hfuel : run + (body ++ mark :: mark :: mark :: rest).length < fuel) :
    readLines mark escapes fuel
      (List.replicate run mark ++ (body ++ mark :: mark :: mark :: rest)) =
        some (List.replicate run mark ++ text, rest) := by
  -- Marks are read a row at a time, so those right before the body stay in front of it until a
  -- character that is no mark ends their row.
  induction h generalizing fuel with
  | nil => simpa using readLines_end hrun hrest (Nat.zero_lt_of_lt hfuel)
  | @mark run text body hless _ ih =>
    have hmarks (tail : List Char) : List.replicate run mark ++ mark :: tail =
        List.replicate (run + 1) mark ++ tail := by simp [List.replicate_succ']
    rw [List.cons_append, hmarks, hmarks]
    exact ih hless fuel (by simp at hfuel ⊢; omega)
  | line _ ih =>
    rw [List.cons_append] at hfuel ⊢
    refine readLines_char [] hrun hmark.1.symm ?_ ?_ hfuel
    · intro fuel
      simp [readLines, hmark.1.symm, lineEnd?]
    · exact fun fuel hless => by simpa using ih (Nat.zero_le 2) fuel (by simpa using hless)
  | @plain _ c _ _ hplain hne hescape _ ih =>
    have hbegins : (escapes && c == '\\') = false := by simpa using hescape
    rw [List.cons_append] at hfuel ⊢
    refine readLines_char [] hrun hne ?_ ?_ hfuel
    · intro fuel
      simp [readLines, hne, hbegins, lineEnd?_of_isPlain hplain, hplain]
    · exact fun fuel hless => by simpa using ih (Nat.zero_le 2) fuel (by simpa using hless)
  | escape hescapes hwritten _ ih =>
    subst hescapes
    obtain ⟨behind, rfl, hread⟩ := readEscape_of_escape? hwritten
    rw [List.cons_append, List.cons_append, List.append_assoc] at hfuel ⊢
    refine readLines_char behind hrun hmark.2.symm ?_ ?_ hfuel
    · intro fuel
      simp only [readLines, hmark.2.symm, hread, BEq.rfl, Bool.and_self, ↓reduceIte]
      rw [Option.map_eq_bind]
      rfl
    · exact fun fuel hless => by simpa using ih (Nat.zero_le 2) fuel (by simpa using hless)

end ReadLines

/-- The body that is written over several lines with escapes. -/
theorem blockBody_blockBody (run : Nat) (cs : List Char) :
    BlockBody double true run cs (blockBody run cs) := by
  -- The writer counts marks as the predicate does, and escapes the third in a row.
  fun_induction blockBody run cs with
  | case1 => exact .nil
  | case2 run rest hrun ih => exact .mark hrun ih
  | case3 run rest hrun ih => exact .escape rfl (by rfl) ih
  | case4 run rest hne ih => exact .line ih
  | case5 run c rest hdouble hline ih =>
    cases hescape : escape? c with
    | none =>
      obtain ⟨hplain, hbackslash, -⟩ := isPlain_of_escape? hescape
      exact .plain hplain hdouble (fun _ => hbackslash) ih
    | some written => exact .escape rfl hescape ih

/-- A character that needs no code is a line feed or plain. -/
theorem isPlain_of_needsCodes {c : Char} {cs : List Char} (h : needsCodes cs = false)
    (hmem : c ∈ cs) (hline : c ≠ '\n') : isPlain c = true := by
  rw [needsCodes, List.any_eq_false] at h
  have hc := h c hmem
  by_cases htab : c = '\t'
  · simp [isPlain, htab]
  · simp [htab, hline] at hc
    simp [isPlain, hc]

theorem le_longestRun (mark : Char) (run : Nat) (cs : List Char) :
    run ≤ longestRun mark run cs := by
  induction cs generalizing run with
  | nil => exact Nat.le_refl run
  | cons c cs ih =>
    rw [longestRun]
    split
    · exact Nat.le_of_succ_le (ih (run + 1))
    · exact Nat.le_max_left ..

/-- A text without three marks in a row is its own body, when its characters but the marks and the
line feeds are plain. -/
theorem blockBody_self {mark : Char} {run : Nat} {cs : List Char}
    (hplain : ∀ c ∈ cs, c ≠ '\n' → isPlain c = true) (hmarks : longestRun mark run cs ≤ 2) :
    BlockBody mark false run cs cs := by
  induction cs generalizing run with
  | nil => exact .nil
  | cons c cs ih =>
    obtain ⟨hc, hcs⟩ := List.forall_mem_cons.mp hplain
    rw [longestRun] at hmarks
    by_cases hmark : c = mark
    · subst hmark
      rw [if_pos rfl] at hmarks
      have hrun := le_longestRun c (run + 1) cs
      exact .mark (by omega) (ih hcs hmarks)
    · rw [if_neg hmark] at hmarks
      -- The longest run is at least as long as the longest one behind this character.
      have hrest : BlockBody mark false 0 cs cs := ih hcs (by omega)
      by_cases hline : c = '\n'
      · exact hline ▸ .line hrest
      · exact .plain (hc hline) hmark (by simp) hrest

/-- A body does not begin with a line end, unless the text begins with a line feed. -/
theorem BlockBody.lineEnd?_eq {mark : Char} {escapes : Bool} {run : Nat} {text body : List Char}
    (h : BlockBody mark escapes run text body) (hmark : isPlain mark = true) (hline : '\n' ∉ text)
    (rest : List Char) : lineEnd? (body ++ mark :: rest) = none := by
  cases h with
  | nil | mark => exact lineEnd?_of_isPlain hmark
  | line => simp at hline
  | plain hplain => exact lineEnd?_of_isPlain hplain
  | escape _ hwritten =>
    obtain ⟨behind, rfl, -⟩ := readEscape_of_escape? hwritten
    rfl

/-- A text over several lines is read as it was written. -/
theorem readText_block {mark : Char} {text body rest : List Char}
    (hmark : mark = double ∨ mark = single)
    (h : BlockBody mark (mark == double) 0 text body) (hrest : rest.head? ≠ some mark) :
    readText (block mark text body ++ rest) = some (String.ofList text, rest) := by
  have hplain : isPlain mark = true := by rcases hmark with rfl | rfl <;> decide
  have hother : mark ≠ '\n' ∧ mark ≠ '\\' := by rcases hmark with rfl | rfl <;> decide
  have hopened : readBlock mark (mark == double)
      ((if '\n' ∈ text then ['\n'] else []) ++ body ++ mark :: mark :: mark :: rest) =
        some (text, rest) := by
    -- The line end right behind the opening marks is the one that was put there, or none.
    have hdropped : (lineEnd? ((if '\n' ∈ text then ['\n'] else []) ++ body ++
        mark :: mark :: mark :: rest)).getD ((if '\n' ∈ text then ['\n'] else []) ++ body ++
          mark :: mark :: mark :: rest) = body ++ mark :: mark :: mark :: rest := by
      split
      next => rfl
      next hline =>
        rw [List.nil_append, h.lineEnd?_eq hplain hline]
        rfl
    rw [readBlock, hdropped]
    exact h.readLines_eq hother (Nat.zero_le 2) hrest _ (by simp)
  have hthree : (mark = double ∨ mark = single) ∧ mark = mark ∧ mark = mark := ⟨hmark, rfl, rfl⟩
  have hblock : block mark text body ++ rest = mark :: mark :: mark ::
      ((if '\n' ∈ text then ['\n'] else []) ++ body ++ mark :: mark :: mark :: rest) := by
    simp [block]
  rw [hblock, readText, if_pos hthree, hopened]
  rfl

/-! ## Every text -/

theorem notMem_of_longestRun {mark : Char} {cs : List Char} (h : longestRun mark 0 cs = 0) :
    mark ∉ cs := by
  induction cs with
  | nil => exact List.not_mem_nil
  | cons c cs ih =>
    rw [longestRun] at h
    by_cases hmark : c = mark
    · rw [if_pos hmark] at h
      have hrun := le_longestRun mark (0 + 1) cs
      omega
    · rw [if_neg hmark] at h
      exact List.not_mem_cons_of_ne_of_not_mem (Ne.symm hmark) (ih (by omega))

theorem formOf_eq_literal {cs : List Char} (h : formOf cs = .literal) :
    needsCodes cs = false ∧ longestRun single 0 cs = 0 ∧ '\n' ∉ cs := by
  -- The forms are tried one after another, and only the second is this one.
  simp only [formOf] at h
  split at h
  · cases h
  split at h
  next hliteral => simpa [and_assoc] using hliteral
  split at h
  · cases h
  split at h
  · cases h
  split at h <;> cases h

theorem formOf_eq_literalBlock {cs : List Char} (h : formOf cs = .literalBlock) :
    needsCodes cs = false ∧ longestRun single 0 cs ≤ 2 := by
  simp only [formOf] at h
  split at h
  · cases h
  split at h
  · cases h
  split at h
  · cases h
  split at h
  next hblock => simpa using hblock
  next => split at h <;> cases h

/-- Every text is read as it was written, up to the end of its line. -/
theorem readText_writeText (s : String) (rest : List Char) :
    readText ((writeText s).toList ++ '\n' :: rest) = some (s, '\n' :: rest) := by
  have hrest {mark : Char} (h : mark = double ∨ mark = single) :
      ('\n' :: rest).head? ≠ some mark := by
    have hfeed : '\n' ≠ double ∧ '\n' ≠ single := by decide
    rcases h with rfl | rfl <;> simp [hfeed]
  have htext : String.ofList s.toList = s := String.ofList_toList
  rw [writeText, String.toList_ofList]
  cases hform : formOf s.toList with
  | basic =>
    have hread := readText_basic s.toList (hrest (.inl rfl))
    simpa [htext] using hread
  | literal =>
    obtain ⟨hcodes, hmarks, hline⟩ := formOf_eq_literal hform
    have hplain : ∀ c ∈ s.toList, isPlain c = true := fun c hmem =>
      isPlain_of_needsCodes hcodes hmem fun heq => hline (heq ▸ hmem)
    have hread := readText_literal hplain (notMem_of_longestRun hmarks) (hrest (.inr rfl))
    simpa [htext] using hread
  | basicBlock =>
    have hread := readText_block (.inl rfl) (blockBody_blockBody 0 s.toList) (hrest (.inl rfl))
    simpa [htext] using hread
  | literalBlock =>
    obtain ⟨hcodes, hmarks⟩ := formOf_eq_literalBlock hform
    have hbody : BlockBody single (single == double) 0 s.toList s.toList :=
      blockBody_self (fun c hmem => isPlain_of_needsCodes hcodes hmem) hmarks
    have hread := readText_block (.inr rfl) hbody (hrest (.inr rfl))
    simpa [htext] using hread

end BucketCare.Toml
