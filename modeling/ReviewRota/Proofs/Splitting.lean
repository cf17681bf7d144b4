import Mathlib
import ReviewRota.Sql.Script

/-!
# Scripts split by position

The splitter reads a script line by line and character by character.  What it finds is what one
split of the whole text finds: comments taken out, lines joined by one space, cut at the semicolons
before which as many parentheses were closed as opened.
-/

namespace ReviewRota

namespace Text

variable {cs before after : List Char}

theorem trimEnd_append_of_blank (h : ∀ c ∈ after, isBlankChar c = true) :
    trimEnd (cs ++ after) = trimEnd cs := by
  have hreverse : ∀ c ∈ after.reverse, isBlankChar c = true :=
    fun c hc => h c (List.mem_reverse.1 hc)
  rw [trimEnd, List.reverse_append, List.dropWhile_append_of_pos hreverse, trimEnd]

theorem trim_append_left_of_blank (h : ∀ c ∈ before, isBlankChar c = true) :
    trim (before ++ cs) = trim cs := by
  rw [trim, List.dropWhile_append_of_pos h, trim]

theorem trim_append_of_blank (h : ∀ c ∈ after, isBlankChar c = true) :
    trim (cs ++ after) = trim cs := by
  rw [trim, List.dropWhile_append, trim]
  split
  · next hempty =>
      rw [List.isEmpty_iff.1 hempty, List.dropWhile_eq_nil_iff.2 h]
  · exact trimEnd_append_of_blank h

theorem exists_eq_append_trim (cs : List Char) : ∃ before after,
    cs = before ++ trim cs ++ after ∧ ∀ c ∈ before ++ after, isBlankChar c = true := by
  have hbefore := List.takeWhile_append_dropWhile (p := isBlankChar) (l := cs)
  have hafter := List.takeWhile_append_dropWhile (p := isBlankChar)
    (l := (cs.dropWhile isBlankChar).reverse)
  refine ⟨cs.takeWhile isBlankChar,
    ((cs.dropWhile isBlankChar).reverse.takeWhile isBlankChar).reverse, ?_, fun c hc => ?_⟩
  · rw [trim, trimEnd, List.append_assoc, ← List.reverse_append, hafter, List.reverse_reverse,
      hbefore]
  · rcases List.mem_append.1 hc with hc | hc
    · exact List.mem_takeWhile_imp hc
    · exact List.mem_takeWhile_imp (List.mem_reverse.1 hc)

end Text

namespace Sql

def chomp (line : List Char) : List Char :=
  if line.getLast? = some '\r' then line.dropLast else line

/-- What follows the last line feed is a line only if there is something. -/
def textLines (cs : List Char) : List (List Char) :=
  (cs.splitOn '\n').dropLast.map chomp ++ (cs.splitOn '\n').getLast?.toList.filter (!·.isEmpty)

def dashed (cs : List Char) : Bool :=
  ['-', '-'].isPrefixOf cs

def cut (line : List Char) : List Char :=
  line.take (line.tails.findIdx dashed)

def keptLines (script : String) : List (List Char) :=
  (textLines script.toList).filter fun line => !dashed (Text.trim line)

def code (script : String) : List Char :=
  [' '].intercalate ((keptLines script).map cut)

def ends (text : List Char) (i : Nat) : Bool :=
  text[i]? = some ';' && (text.take i).count '(' = (text.take i).count ')'

def piecesFrom (text : List Char) (start : Nat) (cs : List Char) : List (List Char) :=
  ((cs.zipIdx start).splitOnP fun entry => ends text entry.2).map (·.map Prod.fst)

def pieces (text : List Char) : List (List Char) :=
  piecesFrom text 0 text

def trimmed (pieces : List (List Char)) : List String :=
  ((pieces.map Text.trim).filter (!·.isEmpty)).map String.ofList

def isParenthesis (c : Char) : Bool :=
  c = '(' || c = ')'

variable {text cs line before after rest : List Char} {c : Char} {start : Nat} {s s' : Splitter}

/-! ## Lines and comments -/

theorem prependTo_eq {c : Char} {first : List Char} {more : List (List Char)} :
    lines.prependTo c ((first :: more).dropLast.map (·, true) ++
        ((first :: more).getLast?.toList.filter (!·.isEmpty)).map (·, false)) =
      ((c :: first) :: more).dropLast.map (·, true) ++
        (((c :: first) :: more).getLast?.toList.filter (!·.isEmpty)).map (·, false) := by
  cases more with
  | nil => cases first <;> rfl
  | cons second more => rfl

theorem go_eq (cs : List Char) : lines.go cs = (cs.splitOn '\n').dropLast.map (·, true) ++
    ((cs.splitOn '\n').getLast?.toList.filter (!·.isEmpty)).map (·, false) := by
  induction cs with
  | nil => rfl
  | cons c rest ih =>
      obtain ⟨first, more, hsplit⟩ := List.exists_cons_of_ne_nil (List.splitOn_ne_nil '\n' rest)
      by_cases hc : c = '\n'
      · subst hc
        have hcons : ('\n' :: rest).splitOn '\n' = [] :: rest.splitOn '\n' := by
          simp [List.splitOn, List.splitOnP_cons_eq_if_modifyHead]
        rw [lines.go, ih, hcons, hsplit]
        rfl
      · have hcons : (c :: rest).splitOn '\n' = (c :: first) :: more := by
          simp only [List.splitOn] at hsplit ⊢
          rw [List.splitOnP_cons_eq_if_modifyHead, hsplit]
          simp [hc]
        rw [lines.go, ih, hcons, hsplit, prependTo_eq]
        exact hc

theorem lines_eq (cs : List Char) : lines cs = textLines cs := by
  have hended : ∀ line : List Char,
      (if true && line.getLast? = some '\r' then line.dropLast else line) = chomp line := by
    intro line
    rw [Bool.true_and, chomp]
    simp only [decide_eq_true_eq]
  rw [lines, go_eq, List.map_append, List.map_map, List.map_map, textLines]
  exact congrArg₂ (· ++ ·) (List.map_congr_left fun line _ => hended line) (List.map_id _)

theorem cut_cons : cut (c :: rest) = if dashed (c :: rest) = true then [] else c :: cut rest := by
  rw [cut, List.tails_cons, List.findIdx_cons, cut]
  cases dashed (c :: rest) <;> rfl

theorem beforeComment_cons : beforeComment (c :: rest) =
    if dashed (c :: rest) = true then [] else c :: beforeComment rest := by
  by_cases hc : c = '-'
  · subst hc
    cases rest with
    | nil => rfl
    | cons d rest' =>
        by_cases hd : d = '-'
        · subst hd
          rfl
        · simp [beforeComment, dashed, List.isPrefixOf, Ne.symm hd, hd]
  · simp [beforeComment, dashed, List.isPrefixOf, Ne.symm hc, hc]

theorem beforeComment_eq (line : List Char) : beforeComment line = cut line := by
  induction line with
  | nil => rfl
  | cons c rest ih => rw [beforeComment_cons, cut_cons, ih]

theorem isComment_eq (line : List Char) : isComment line = dashed (Text.trim line) := by
  rw [isComment, dashed, Bool.eq_iff_iff, decide_eq_true_eq, List.isPrefixOf_iff_prefix,
    List.prefix_iff_eq_take, eq_comm]
  rfl

theorem exists_eq_cut_append (line : List Char) : ∃ comment,
    line = cut line ++ comment ∧ (comment = [] ∨ dashed comment = true) := by
  induction line with
  | nil => exact ⟨[], rfl, .inl rfl⟩
  | cons c rest ih =>
      rw [cut_cons]
      split
      · next hdashed => exact ⟨c :: rest, rfl, .inr hdashed⟩
      · obtain ⟨comment, hrest, hcomment⟩ := ih
        exact ⟨comment, congrArg (c :: ·) hrest, hcomment⟩

/-! ## Pieces -/

theorem piecesFrom_nil : piecesFrom text start [] = [[]] := by
  simp [piecesFrom]

theorem piecesFrom_cons : piecesFrom text start (c :: cs) =
    if ends text start = true then [] :: piecesFrom text (start + 1) cs
    else (piecesFrom text (start + 1) cs).modifyHead (c :: ·) := by
  rw [piecesFrom, List.zipIdx_cons, List.splitOnP_cons_eq_if_modifyHead]
  split
  · rfl
  · rw [piecesFrom]
    cases (cs.zipIdx (start + 1)).splitOnP fun entry => ends text entry.2 <;> rfl

theorem piecesFrom_ne_nil : piecesFrom text start cs ≠ [] := by
  rw [piecesFrom, ne_eq, List.map_eq_nil_iff]
  exact List.splitOnP_ne_nil _ _

theorem ends_append_cons : ends (before ++ c :: after) before.length =
    (c = ';' && before.count '(' = before.count ')') := by
  rw [ends, List.getElem?_append_right (Nat.le_refl _), Nat.sub_self, List.take_left']
  · simp
  · rfl

theorem intercalate_piecesFrom (h : text = before ++ after) :
    [';'].intercalate (piecesFrom text before.length after) = after := by
  induction after generalizing before with
  | nil => rw [piecesFrom_nil]; rfl
  | cons c rest ih =>
      have hrest : [';'].intercalate (piecesFrom text (before ++ [c]).length rest) = rest :=
        ih (by simp [h])
      rw [List.length_append, List.length_singleton] at hrest
      have hsome : piecesFrom text (before.length + 1) rest ≠ [] := piecesFrom_ne_nil
      obtain ⟨first, more, hpieces⟩ := List.exists_cons_of_ne_nil hsome
      rw [piecesFrom_cons]
      rw [hpieces] at hrest ⊢
      split
      · next hends =>
          rw [h, ends_append_cons, Bool.and_eq_true, decide_eq_true_eq] at hends
          rw [List.intercalate_cons_cons, hrest, hends.1]
          rfl
      · rw [List.modifyHead_cons]
        cases more with
        | nil => simpa using hrest
        | cons second more =>
            rw [List.intercalate_cons_cons] at hrest ⊢
            rw [List.cons_append, List.cons_append, hrest]

theorem intercalate_pieces (text : List Char) : [';'].intercalate (pieces text) = text :=
  @intercalate_piecesFrom text [] text rfl

/-! ## The splitter on one text -/

theorem trimmed_cons {more : List (List Char)} : trimmed (before :: more) =
    trimmed [before] ++ trimmed more := by
  rw [trimmed, trimmed, trimmed, ← List.map_append, ← List.filter_append, ← List.map_append]
  rfl

theorem trimmed_congr (h : Text.trim before = Text.trim after) :
    trimmed [before] = trimmed [after] := by
  rw [trimmed, trimmed, List.map_singleton, List.map_singleton, h]

def level (cs : List Char) : Int :=
  cs.count '(' - cs.count ')'

theorem count_add_count (cs : List Char) :
    cs.count '(' + cs.count ')' = cs.countP isParenthesis := by
  induction cs with
  | nil => rfl
  | cons c rest ih =>
      rw [List.count_cons, List.count_cons, List.countP_cons, ← ih, isParenthesis]
      by_cases hopening : c = '('
      · simp [hopening]; omega
      · by_cases hclosing : c = ')' <;> simp [hopening, hclosing]; omega

namespace Splitter

theorem statements_close : s.close.statements = s.statements ++ trimmed [s.current] := by
  unfold close trimmed
  cases hempty : (Text.trim s.current).isEmpty <;> simp [hempty]

theorem feed_of_end (hc : c = ';') (hdepth : s.depth = 0) : s.feed c = s.close := by
  subst hc
  simp [feed, hdepth]

theorem feed_of_not_end (h : ¬ (c = ';' ∧ s.depth = 0)) :
    (s.feed c).statements = s.statements ∧ (s.feed c).current = s.current ++ [c] := by
  unfold feed
  split
  · exact ⟨rfl, rfl⟩
  · split <;> exact ⟨rfl, rfl⟩

theorem toInt_add_one {depth : Int32} (h : depth.toInt + 1 < 2 ^ 31) :
    (depth + 1).toInt = depth.toInt + 1 := by
  have hleast := depth.le_toInt
  rw [Int32.toInt_add]
  exact Int.bmod_eq_of_le (by simp; omega) (by simp; omega)

theorem toInt_descend {depth : Int32} (h : -2 ^ 31 < depth.toInt) :
    (descend depth).toInt = depth.toInt - 1 := by
  have hgreatest := depth.toInt_lt
  have hne : depth ≠ Int32.minValue := by
    rintro rfl
    exact absurd h (by decide)
  rw [descend, if_neg hne, Int32.toInt_sub]
  exact Int.bmod_eq_of_le (by simp; omega) (by simp; omega)

theorem depth_feed (hdepth : s.depth.toInt = level before)
    (hfew : (before ++ [c]).countP isParenthesis < 2 ^ 31) :
    (s.feed c).depth.toInt = level (before ++ [c]) := by
  have hcount := count_add_count (before ++ [c])
  rw [List.count_append, List.count_append] at hcount
  rw [level] at hdepth ⊢
  rw [List.count_append, List.count_append]
  unfold feed
  split
  · next hc =>
      subst hc
      have hopening : ['('].count '(' = 1 := rfl
      have hclosing : ['('].count ')' = 0 := rfl
      rw [hopening, hclosing] at hcount ⊢
      rw [toInt_add_one (by omega), hdepth]
      omega
  · split
    · next hc =>
        subst hc
        have hopening : [')'].count '(' = 0 := rfl
        have hclosing : [')'].count ')' = 1 := rfl
        rw [hopening, hclosing] at hcount ⊢
        rw [toInt_descend (by omega), hdepth]
        omega
    · next hopening hclosing =>
        have hsame : (if c = ';' ∧ s.depth = 0 then s.close
            else { s with current := s.current ++ [c] }).depth = s.depth := by
          split <;> rfl
        rw [hsame, hdepth, List.count_singleton, List.count_singleton]
        simp [hopening, hclosing]

end Splitter

theorem depth_eq_zero_iff (hdepth : s.depth.toInt = level before) :
    s.depth = 0 ↔ before.count '(' = before.count ')' := by
  rw [← Int32.toInt_inj, hdepth, level, Int32.toInt_zero]
  omega

theorem statements_foldl_feed (hfew : (before ++ after).countP isParenthesis < 2 ^ 31)
    (hdepth : s.depth.toInt = level before) :
    (after.foldl Splitter.feed s).close.statements = s.statements ++
      trimmed ((piecesFrom (before ++ after) before.length after).modifyHead (s.current ++ ·)) := by
  -- What has been read stands in `before`, so that positions are those of the whole text.
  induction after generalizing before s with
  | nil =>
      rw [List.foldl_nil, Splitter.statements_close, piecesFrom_nil, List.modifyHead_cons,
        List.append_nil]
  | cons c rest ih =>
      have htext : before ++ c :: rest = before ++ [c] ++ rest := by simp
      have hfew' : (before ++ [c]).countP isParenthesis < 2 ^ 31 := by
        rw [htext, List.countP_append] at hfew
        exact Nat.lt_of_le_of_lt (Nat.le_add_right _ _) hfew
      have hrest := ih (htext ▸ hfew) (Splitter.depth_feed hdepth hfew')
      rw [← htext, List.length_append, List.length_singleton] at hrest
      have hend : ends (before ++ c :: rest) before.length = true ↔ c = ';' ∧ s.depth = 0 := by
        rw [ends_append_cons, Bool.and_eq_true, decide_eq_true_eq, decide_eq_true_eq,
          depth_eq_zero_iff hdepth]
      rw [List.foldl_cons, hrest, piecesFrom_cons]
      split
      · next h =>
          obtain ⟨hc, hzero⟩ := hend.1 h
          have hsame (more : List (List Char)) :
              more.modifyHead (s.close.current ++ ·) = more := by
            change more.modifyHead id = more
            rw [List.modifyHead_id, id]
          rw [Splitter.feed_of_end hc hzero, Splitter.statements_close, hsame, List.modifyHead_cons,
            List.append_nil, List.append_assoc, ← trimmed_cons]
      · next h =>
          obtain ⟨hstatements, hcurrent⟩ := Splitter.feed_of_not_end (hend.not.1 h)
          rw [hstatements, hcurrent, List.modifyHead_modifyHead]
          simp only [Function.comp_def, List.append_assoc, List.singleton_append]

theorem statements_foldl_start (hfew : cs.countP isParenthesis < 2 ^ 31) :
    (cs.foldl Splitter.feed .start).close.statements = trimmed (pieces cs) := by
  have hfold := @statements_foldl_feed [] cs .start hfew rfl
  rw [hfold]
  change trimmed ((piecesFrom cs 0 cs).modifyHead id) = _
  rw [List.modifyHead_id, id, pieces]

structure Alike (s s' : Splitter) : Prop where
  statements : s'.statements = s.statements
  depth : s'.depth = s.depth
  current : ∃ blanks, (∀ c ∈ blanks, Text.isBlankChar c = true) ∧ s'.current = blanks ++ s.current

theorem Alike.close (h : Alike s s') : Alike s.close s'.close where
  statements := by
    obtain ⟨blanks, hblanks, hcurrent⟩ := h.current
    rw [Splitter.statements_close, Splitter.statements_close, h.statements, hcurrent,
      trimmed_congr (Text.trim_append_left_of_blank hblanks)]
  depth := h.depth
  current := ⟨[], nofun, rfl⟩

theorem Alike.push (h : Alike s s') (c : Char) {depth depth' : Int32} (hdepth : depth' = depth) :
    Alike { s with current := s.current ++ [c], depth := depth }
      { s' with current := s'.current ++ [c], depth := depth' } where
  statements := h.statements
  depth := hdepth
  current := by
    obtain ⟨blanks, hblanks, hcurrent⟩ := h.current
    exact ⟨blanks, hblanks, by rw [hcurrent, List.append_assoc]⟩

theorem Alike.feed (h : Alike s s') (c : Char) : Alike (s.feed c) (s'.feed c) := by
  unfold Splitter.feed
  rw [h.depth]
  split
  · exact h.push c rfl
  · split
    · exact h.push c rfl
    · split
      · exact h.close
      · exact h.push c rfl

theorem Alike.foldl (h : Alike s s') (cs : List Char) :
    Alike (cs.foldl Splitter.feed s) (cs.foldl Splitter.feed s') := by
  induction cs generalizing s s' with
  | nil => exact h
  | cons c rest ih => exact ih (h.feed c)

def padded (line : List Char) : List Char :=
  if dashed (Text.trim line) = true then [] else cut line ++ [' ']

theorem isBlankChar_of_mem_space (h : c ∈ [' ']) : Text.isBlankChar c = true := by
  rw [List.mem_singleton.1 h]
  decide

theorem feed_space : s.feed ' ' = { s with current := s.current ++ [' '] } := by
  simp [Splitter.feed]

theorem Alike.feedLine (h : Alike s s') (line : List Char) :
    Alike (s.feedLine line) ((padded line).foldl Splitter.feed s') := by
  unfold Splitter.feedLine padded
  rw [isComment_eq, beforeComment_eq]
  split
  · exact h
  · have hline := h.foldl (cut line)
    rw [List.foldl_append, List.foldl_cons, List.foldl_nil, feed_space]
    dsimp only
    split
    · next hempty =>
        obtain ⟨blanks, hblanks, hcurrent⟩ := hline.current
        refine ⟨hline.statements, hline.depth, blanks ++ [' '], fun c hc => ?_, ?_⟩
        · rcases List.mem_append.1 hc with hc | hc
          · exact hblanks c hc
          · exact isBlankChar_of_mem_space hc
        · dsimp only
          rw [hcurrent, List.isEmpty_iff.1 hempty, List.append_nil, List.append_nil]
    · exact hline.push ' ' hline.depth

theorem Alike.feedLines (h : Alike s s') (ls : List (List Char)) :
    Alike (ls.foldl Splitter.feedLine s) ((ls.flatMap padded).foldl Splitter.feed s') := by
  induction ls generalizing s s' with
  | nil => exact h
  | cons line rest ih =>
      rw [List.flatMap_cons, List.foldl_append]
      exact ih (h.feedLine line)

theorem flatMap_padded (ls : List (List Char)) : ls.flatMap padded =
    ((ls.filter fun line => !dashed (Text.trim line)).map cut).flatMap (· ++ [' ']) := by
  induction ls with
  | nil => rfl
  | cons line rest ih =>
      rw [List.flatMap_cons, ih, List.filter_cons, padded]
      cases dashed (Text.trim line) <;> rfl

theorem flatMap_append_singleton {ls : List (List Char)} (h : ls ≠ []) :
    ls.flatMap (· ++ [c]) = [c].intercalate ls ++ [c] := by
  induction ls with
  | nil => exact absurd rfl h
  | cons line rest ih =>
      cases rest with
      | nil => simp
      | cons second more =>
          rw [List.flatMap_cons, ih (List.cons_ne_nil _ _), List.intercalate_cons_cons,
            List.append_assoc, List.append_assoc, List.append_assoc]

theorem statements_feed_space : (s.feed ' ').close.statements = s.close.statements := by
  have htrim : Text.trim (s.current ++ [' ']) = Text.trim s.current :=
    Text.trim_append_of_blank fun _ => isBlankChar_of_mem_space
  rw [feed_space, Splitter.statements_close, Splitter.statements_close, trimmed_congr htrim]

theorem statements_eq (script : String) :
    statements script = ((code script).foldl Splitter.feed .start).close.statements := by
  have hstart : Alike Splitter.start Splitter.start := ⟨rfl, rfl, [], nofun, rfl⟩
  have hlines := (hstart.feedLines (textLines script.toList)).close.statements
  rw [statements, lines_eq, ← hlines, flatMap_padded, ← keptLines]
  by_cases hkept : (keptLines script).map cut = []
  · rw [code, hkept]
    rfl
  · rw [flatMap_append_singleton hkept, List.foldl_append, ← code]
    exact statements_feed_space

theorem countP_intercalate (hc : isParenthesis c = false) (ls : List (List Char)) :
    ([c].intercalate ls).countP isParenthesis = (ls.map (List.countP isParenthesis)).sum := by
  cases ls with
  | nil => rfl
  | cons line rest =>
      have hcount := congrArg (List.countP isParenthesis)
        (flatMap_append_singleton (c := c) (List.cons_ne_nil line rest))
      rw [List.countP_append, List.countP_singleton, List.countP_flatMap] at hcount
      simpa [Function.comp_def, hc] using hcount.symm

theorem countP_chomp_le (line : List Char) :
    (chomp line).countP isParenthesis ≤ line.countP isParenthesis := by
  unfold chomp
  split
  · exact (List.dropLast_sublist line).countP_le
  · exact Nat.le_refl _

theorem countP_textLines_le (cs : List Char) :
    ((textLines cs).map (List.countP isParenthesis)).sum ≤ cs.countP isParenthesis := by
  have hsum : ((cs.splitOn '\n').map (List.countP isParenthesis)).sum =
      cs.countP isParenthesis := by
    rw [← countP_intercalate (c := '\n') rfl, List.intercalate_splitOn]
  obtain ⟨init, last, hsplit⟩ : ∃ init last, cs.splitOn '\n' = init ++ [last] :=
    ⟨_, _, (List.dropLast_append_getLast (List.splitOn_ne_nil '\n' cs)).symm⟩
  have hinit : ((init.map chomp).map (List.countP isParenthesis)).sum ≤
      (init.map (List.countP isParenthesis)).sum := by
    rw [List.map_map]
    exact List.sum_le_sum fun line _ => countP_chomp_le line
  have hlast : (([last].filter (!·.isEmpty)).map (List.countP isParenthesis)).sum ≤
      ([last].map (List.countP isParenthesis)).sum :=
    (List.filter_sublist.map _).sum_le_sum fun _ _ => Nat.zero_le _
  rw [← hsum, textLines, hsplit, List.dropLast_concat, List.getLast?_concat, List.map_append,
    List.map_append, List.sum_append, List.sum_append]
  exact Nat.add_le_add hinit hlast

theorem countP_code_le (script : String) :
    (code script).countP isParenthesis ≤ script.toList.countP isParenthesis := by
  calc (code script).countP isParenthesis
      = (((keptLines script).map cut).map (List.countP isParenthesis)).sum :=
        countP_intercalate rfl _
    _ ≤ ((keptLines script).map (List.countP isParenthesis)).sum := by
        rw [List.map_map]
        exact List.sum_le_sum fun line _ => (List.take_sublist _ _).countP_le
    _ ≤ ((textLines script.toList).map (List.countP isParenthesis)).sum :=
        (List.filter_sublist.map _).sum_le_sum fun _ _ => Nat.zero_le _
    _ ≤ script.toList.countP isParenthesis := countP_textLines_le _

/-! ## Scripts -/

/-- The statements of a script are the pieces between the semicolons outside parentheses; nothing
else is lost than comments, blanks around a piece and those semicolons. -/
theorem splitting (script : String) (hfew : script.toList.countP isParenthesis < 2 ^ 31) :
    statements script = trimmed (pieces (code script)) ∧
    [';'].intercalate (pieces (code script)) = code script ∧
    (∀ piece ∈ pieces (code script), ∃ before after, piece = before ++ Text.trim piece ++ after ∧
      ∀ c ∈ before ++ after, Text.isBlankChar c = true) ∧
    ∀ line ∈ textLines script.toList, ∃ comment,
      line = cut line ++ comment ∧ (comment = [] ∨ dashed comment = true) := by
  have hcode : (code script).countP isParenthesis < 2 ^ 31 :=
    Nat.lt_of_le_of_lt (countP_code_le script) hfew
  refine ⟨?_, ?_, fun piece _ => Text.exists_eq_append_trim piece,
    fun line _ => exists_eq_cut_append line⟩
  · rw [statements_eq, statements_foldl_start hcode]
  · exact intercalate_pieces _

def nested : String := "  a (b; c)\r\n-- no;\n;d -- e;"

theorem splitting_nested : nested.toList.countP isParenthesis < 2 ^ 31 ∧
    trimmed (pieces (code nested)) = ["a (b; c)", "d"] := by
  have hfew : nested.toList.countP isParenthesis < 2 ^ 31 := by cbv
  have hstatements : statements nested = ["a (b; c)", "d"] := by cbv
  obtain ⟨hsplit, -⟩ := splitting nested hfew
  exact ⟨hfew, hsplit.symm.trans hstatements⟩

end Sql

end ReviewRota
