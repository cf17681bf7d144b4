import Mathlib
import ReviewRota.Proofs.Depth

/-!
# The normal form of a script

The statements of a script, each of them on a line of its own and ended by a semicolon, are a script
of the same statements.  No statement holds a line end or the start of a comment, even where lines
were joined, and each but the last one closes the parentheses that it opens.
-/

namespace ReviewRota

namespace Text

variable {cs : List Char} {c : Char}

theorem not_isBlankChar_of_getLast?_trim (h : (trim cs).getLast? = some c) :
    isBlankChar c = false := by
  rw [trim, trimEnd, List.getLast?_reverse] at h
  have hhead := List.head?_dropWhile_not isBlankChar (cs.dropWhile isBlankChar).reverse
  rw [h] at hhead
  simpa using hhead

end Text

namespace Sql

variable {cs before after line : List Char} {c : Char} {ls qs : List (List Char)} {s : Splitter}
  {script : String} {statement : String}

/-! ## Texts without comments -/

def Undashed (cs : List Char) : Prop :=
  cs.IsChain fun a b => ¬ (a = '-' ∧ b = '-')

theorem undashed_iff : Undashed cs ↔ ¬ ['-', '-'] <:+: cs := by
  constructor
  · intro h hwithin
    have hpair := List.IsChain.infix h hwithin
    simp at hpair
  · intro h
    refine (List.isChain_isInfix cs).imp fun a b hab => ?_
    rintro ⟨rfl, rfl⟩
    exact h hab

theorem dashed_iff : dashed cs = true ↔ ['-', '-'] <+: cs := by
  rw [dashed, List.isPrefixOf_iff_prefix]

theorem Undashed.dashed_eq_false (h : Undashed cs) : dashed cs = false := by
  rw [Bool.eq_false_iff, ne_eq, dashed_iff]
  exact fun hprefix => undashed_iff.1 h hprefix.isInfix

theorem Undashed.cut_eq (h : Undashed cs) : cut cs = cs := by
  induction cs with
  | nil => rfl
  | cons c rest ih =>
      have hrest : Undashed rest := List.IsChain.tail h
      rw [cut_cons, h.dashed_eq_false, ih hrest]
      rfl

theorem undashed_cut (line : List Char) : Undashed (cut line) := by
  induction line with
  | nil => exact List.isChain_nil
  | cons c rest ih =>
      rw [cut_cons]
      split
      · exact List.isChain_nil
      · next hdashed =>
          refine List.IsChain.cons ih fun d hd => ?_
          rintro ⟨rfl, rfl⟩
          -- What is kept of the rest is where it starts.
          obtain ⟨comment, hrest, -⟩ := exists_eq_cut_append rest
          obtain ⟨kept, hkept⟩ := List.head?_eq_some_iff.1 hd
          rw [hkept] at hrest
          exact hdashed (dashed_iff.2 ⟨kept ++ comment, by rw [hrest]; rfl⟩)

theorem undashed_append_cons (hc : c ≠ '-') (hbefore : Undashed before) (hafter : Undashed after) :
    Undashed (before ++ c :: after) := by
  refine List.IsChain.append hbefore (List.IsChain.cons hafter fun d _ h => hc h.1) ?_
  rintro a - b hb ⟨-, rfl⟩
  rw [List.head?_cons, Option.mem_some_iff] at hb
  exact hc hb

/-- What holds of parts, and of what is joined from two, holds of all parts joined. -/
theorem intercalate_induction {P : List Char → Prop} {sep : List Char} (hnil : P [])
    (hjoin : ∀ before after, P before → P after → P (before ++ (sep ++ after)))
    (h : ∀ line ∈ ls, P line) : P (sep.intercalate ls) := by
  induction ls with
  | nil => exact hnil
  | cons line rest ih =>
      have hline := h line List.mem_cons_self
      have hrest := ih fun l hl => h l (List.mem_cons_of_mem _ hl)
      cases rest with
      | nil => simpa using hline
      | cons second more =>
          rw [List.intercalate_cons_cons, List.append_assoc]
          exact hjoin line _ hline hrest

theorem undashed_intercalate (h : ∀ line ∈ ls, Undashed line) :
    Undashed ([' '].intercalate ls) :=
  intercalate_induction List.isChain_nil
    (fun _ _ hbefore hafter => undashed_append_cons (by decide) hbefore hafter) h

theorem undashed_code (script : String) : Undashed (code script) := by
  refine undashed_intercalate fun line hline => ?_
  obtain ⟨kept, -, rfl⟩ := List.mem_map.1 hline
  exact undashed_cut kept

theorem not_mem_of_mem_splitOn {sep : Char} (h : line ∈ cs.splitOn sep) : sep ∉ line := by
  induction cs generalizing line with
  | nil =>
      rw [List.splitOn_nil, List.mem_singleton] at h
      subst h
      exact List.not_mem_nil
  | cons c rest ih =>
      rw [List.splitOn_cons_eq_if_modifyHead] at h
      split at h
      · rcases List.mem_cons.1 h with rfl | h
        · exact List.not_mem_nil
        · exact ih h
      · next hc =>
          obtain ⟨first, more, hsplit⟩ := List.exists_cons_of_ne_nil (List.splitOn_ne_nil sep rest)
          rw [hsplit, List.modifyHead_cons, List.mem_cons] at h
          rw [hsplit] at ih
          rcases h with rfl | h
          · have hne : sep ≠ c := fun heq => hc (beq_iff_eq.2 heq.symm)
            exact List.not_mem_cons_of_ne_of_not_mem hne (ih List.mem_cons_self)
          · exact ih (List.mem_cons_of_mem _ h)

theorem not_mem_of_mem_textLines (h : line ∈ textLines cs) : '\n' ∉ line := by
  rcases List.mem_append.1 h with h | h
  · obtain ⟨whole, hwhole, rfl⟩ := List.mem_map.1 h
    have hsplit := not_mem_of_mem_splitOn (List.mem_of_mem_dropLast hwhole)
    unfold chomp
    split
    · exact fun hmem => hsplit (List.mem_of_mem_dropLast hmem)
    · exact hsplit
  · obtain ⟨hlast, -⟩ := List.mem_filter.1 h
    exact not_mem_of_mem_splitOn (List.mem_of_getLast? (Option.mem_toList.1 hlast))

theorem not_mem_intercalate {sep : Char} (hne : c ≠ sep) (h : ∀ line ∈ ls, c ∉ line) :
    c ∉ [sep].intercalate ls := by
  refine intercalate_induction List.not_mem_nil (fun before after hbefore hafter => ?_) h
  rw [List.mem_append, List.mem_append, List.mem_singleton]
  rintro (hmem | heq | hmem)
  · exact hbefore hmem
  · exact hne heq
  · exact hafter hmem

theorem not_mem_code (script : String) : '\n' ∉ code script := by
  refine not_mem_intercalate (by decide) fun line hline => ?_
  obtain ⟨kept, hkept, rfl⟩ := List.mem_map.1 hline
  have hlines := not_mem_of_mem_textLines (List.mem_filter.1 hkept).1
  exact fun hmem => hlines (List.mem_of_mem_take hmem)

/-! ## A script of given statements -/

structure Normal (statement : List Char) : Prop where
  nonempty : statement ≠ []
  trimmed : Text.trim statement = statement
  oneLine : '\n' ∉ statement
  undashed : Undashed statement
  whole : Whole statement

theorem normal_of_mem_statements (h : statement ∈ statements script) :
    Normal statement.toList := by
  have htaken := taken_of_mem_statements h
  refine ⟨htaken.nonempty, htaken.trimmed, fun hmem => ?_, ?_, htaken.whole⟩
  · exact not_mem_code script (htaken.isInfix.subset hmem)
  · exact List.IsChain.infix (undashed_code script) htaken.isInfix

def endedLines : List (List Char) → List (List Char)
  | [] => []
  | [last] => [last]
  | statement :: rest => (statement ++ [';']) :: endedLines rest

theorem intercalate_endedLines (qs : List (List Char)) :
    ['\n'].intercalate (endedLines qs) = [';', '\n'].intercalate qs := by
  induction qs with
  | nil => rfl
  | cons q rest ih =>
      cases rest with
      | nil => rfl
      | cons second more =>
          have hlines : endedLines (second :: more) ≠ [] := by
            cases more <;> exact List.cons_ne_nil _ _
          rw [endedLines, List.intercalate_cons_of_ne_nil hlines, ih, List.intercalate_cons_cons]
          simp only [List.append_assoc, List.cons_append, List.nil_append]
          exact List.cons_ne_nil _ _

theorem lines_intercalate
    (h : ∀ line ∈ ls, '\n' ∉ line ∧ line ≠ [] ∧ line.getLast? ≠ some '\r') :
    lines (['\n'].intercalate ls) = ls := by
  cases ls using List.reverseRecOn with
  | nil => rfl
  | append_singleton init last =>
      have hsplit : (['\n'].intercalate (init ++ [last])).splitOn '\n' = init ++ [last] :=
        List.splitOn_intercalate '\n' (fun line hline => (h line hline).1) (by simp)
      have hinit : init.map chomp = init :=
        (List.map_congr_left fun line hline =>
          if_neg (h line (List.mem_append_left _ hline)).2.2).trans (List.map_id init)
      have hlast := (h last (List.mem_append_right _ List.mem_cons_self)).2.1
      rw [lines_eq, textLines, hsplit, List.dropLast_concat, List.getLast?_concat, hinit]
      simp [hlast]

theorem Normal.getLast?_ne (h : Normal cs) : cs.getLast? ≠ some '\r' := by
  intro hlast
  rw [← h.trimmed] at hlast
  exact absurd (Text.not_isBlankChar_of_getLast?_trim hlast) (by decide)

theorem lines_endedLines (h : ∀ q ∈ qs, Normal q) :
    lines ([';', '\n'].intercalate qs) = endedLines qs := by
  rw [← intercalate_endedLines]
  refine lines_intercalate ?_
  induction qs with
  | nil => exact nofun
  | cons q rest ih =>
      have hq := h q List.mem_cons_self
      have hrest := ih fun p hp => h p (List.mem_cons_of_mem _ hp)
      cases rest with
      | nil =>
          intro line hline
          rw [List.mem_singleton.1 hline]
          exact ⟨hq.oneLine, hq.nonempty, hq.getLast?_ne⟩
      | cons second more =>
          intro line hline
          rcases List.mem_cons.1 hline with rfl | hline
          · refine ⟨?_, by simp, by simp⟩
            simpa using hq.oneLine
          · exact hrest line hline

theorem feed_of_open (hopen : ¬ (c = ';' ∧ s.depth = 0)) :
    s.feed c = ⟨s.statements, s.current ++ [c], turn s.depth c⟩ := by
  obtain ⟨hstatements, hcurrent⟩ := Splitter.feed_of_not_end hopen
  rw [← hstatements, ← hcurrent, ← Splitter.depth_feed_eq]

theorem foldl_feed_of_whole (before : List Char) (hdepth : s.depth = depthAfter 0 before)
    (hwhole : Whole (before ++ after)) : after.foldl Splitter.feed s =
      ⟨s.statements, s.current ++ after, depthAfter s.depth after⟩ := by
  induction after generalizing before s with
  | nil => rw [List.append_nil]; rfl
  | cons c rest ih =>
      have hopen : ¬ (c = ';' ∧ s.depth = 0) := by
        rintro ⟨rfl, hzero⟩
        exact hwhole before rest rfl (hdepth ▸ hzero)
      have hnext : turn s.depth c = depthAfter 0 (before ++ [c]) := by
        rw [hdepth, depthAfter_append_singleton]
      rw [List.foldl_cons, feed_of_open hopen, ih _ hnext (by simpa using hwhole),
        List.append_assoc]
      rfl

theorem feedLine_of_undashed (h : Undashed line) : s.feedLine line =
    let s := line.foldl Splitter.feed s
    if s.current.isEmpty then s else { s with current := s.current ++ [' '] } := by
  have htrim : Undashed (Text.trim line) := List.IsChain.infix h (Text.trim_infix line)
  rw [Splitter.feedLine, isComment_eq, htrim.dashed_eq_false, beforeComment_eq, h.cut_eq]
  rfl

def between (done : List String) : Splitter := ⟨done, [], 0⟩

theorem foldl_feed_between {done : List String} (h : Normal cs) :
    cs.foldl Splitter.feed (between done) = ⟨done, cs, depthAfter 0 cs⟩ :=
  foldl_feed_of_whole (s := between done) [] rfl h.whole

theorem trimmed_singleton (h : Normal cs) : trimmed [cs] = [String.ofList cs] := by
  simp [trimmed, h.trimmed, h.nonempty]

theorem feedLine_ended {done : List String} (h : Normal cs) (hbalanced : depthAfter 0 cs = 0) :
    (between done).feedLine (cs ++ [';']) = between (done ++ [String.ofList cs]) := by
  have hundashed : Undashed (cs ++ [';']) :=
    undashed_append_cons (by decide) h.undashed List.isChain_nil
  have hclose : (⟨done, cs, 0⟩ : Splitter).close = between (done ++ [String.ofList cs]) := by
    rw [← trimmed_singleton h]
    exact congrArg between (Splitter.statements_close (s := ⟨done, cs, 0⟩))
  rw [feedLine_of_undashed hundashed, List.foldl_append, foldl_feed_between h, hbalanced,
    List.foldl_cons, List.foldl_nil, Splitter.feed_of_end rfl rfl, hclose]
  rfl

theorem feedLine_last {done : List String} (h : Normal cs) :
    ((between done).feedLine cs).close.statements = done ++ [String.ofList cs] := by
  have hempty : cs.isEmpty = false := by simpa using h.nonempty
  have htrim : Text.trim (cs ++ [' ']) = Text.trim cs :=
    Text.trim_append_of_blank fun _ => isBlankChar_of_mem_space
  rw [feedLine_of_undashed h.undashed, foldl_feed_between h]
  simp only [hempty, Bool.false_eq_true, if_false]
  rw [Splitter.statements_close, trimmed_congr htrim, trimmed_singleton h]

theorem statements_foldl_endedLines (done : List String) (h : ∀ q ∈ qs, Normal q)
    (hbalanced : ∀ q ∈ qs.dropLast, depthAfter 0 q = 0) :
    ((endedLines qs).foldl Splitter.feedLine (between done)).close.statements =
      done ++ qs.map String.ofList := by
  induction qs generalizing done with
  | nil => simp [endedLines, Splitter.statements_close, between, trimmed, Text.trim, Text.trimEnd]
  | cons q rest ih =>
      have hq := h q List.mem_cons_self
      cases rest with
      | nil => exact feedLine_last hq
      | cons second more =>
          rw [List.dropLast_cons_cons] at hbalanced
          have hrest := fun p hp => h p (List.mem_cons_of_mem q hp)
          have hlines := ih (done ++ [String.ofList q]) hrest fun p hp =>
            hbalanced p (List.mem_cons_of_mem _ hp)
          rw [endedLines, List.foldl_cons,
            feedLine_ended hq (hbalanced q List.mem_cons_self), hlines]
          simp
          exact List.cons_ne_nil _ _

theorem statements_of_normal {sts : List String} (h : ∀ statement ∈ sts, Normal statement.toList)
    (hbalanced : ∀ statement ∈ sts.dropLast, depthAfter 0 statement.toList = 0) :
    statements (";\n".intercalate sts) = sts := by
  have hnormal : ∀ q ∈ sts.map String.toList, Normal q := by
    simpa using h
  have hinit : ∀ q ∈ (sts.map String.toList).dropLast, depthAfter 0 q = 0 := by
    intro q hq
    rw [← List.map_dropLast] at hq
    obtain ⟨statement, hmem, rfl⟩ := List.mem_map.1 hq
    exact hbalanced statement hmem
  have hread := statements_foldl_endedLines [] hnormal hinit
  rw [← lines_endedLines hnormal, List.nil_append, List.map_map] at hread
  rw [statements, String.toList_intercalate]
  exact hread.trans ((List.map_congr_left fun _ _ => String.ofList_toList).trans (List.map_id sts))

/-- Putting the statements of a script together gives a script of the same statements, whatever the
parentheses are like.  A statement has no line end and no comment; all but the last are balanced. -/
theorem normal_form (script : String) :
    statements (";\n".intercalate (statements script)) = statements script ∧
    (∀ statement ∈ statements script, statement ≠ "" ∧
      Text.trim statement.toList = statement.toList ∧ '\n' ∉ statement.toList ∧
      ¬ ['-', '-'] <:+: statement.toList) ∧
    (script.toList.countP isParenthesis < 2 ^ 31 →
      ∀ statement ∈ (statements script).dropLast,
        statement.toList.count '(' = statement.toList.count ')') := by
  refine ⟨?_, fun statement hmem => ?_, fun hfew statement hmem => ?_⟩
  · exact statements_of_normal (fun _ => normal_of_mem_statements) fun _ => ended_of_mem_dropLast
  · have hnormal := normal_of_mem_statements hmem
    refine ⟨?_, hnormal.trimmed, hnormal.oneLine, undashed_iff.1 hnormal.undashed⟩
    rintro rfl
    exact hnormal.nonempty rfl
  · have htaken := (taken_of_mem_statements (List.mem_of_mem_dropLast hmem)).isInfix
    have hcount : statement.toList.countP isParenthesis < 2 ^ 31 :=
      Nat.lt_of_le_of_lt (htaken.sublist.countP_le.trans (countP_code_le script)) hfew
    exact (depthAfter_eq_zero_iff hcount).1 (ended_of_mem_dropLast hmem)

def unbalanced : String := "a(; -- b\n;-\n-) ;;c -) ; d"

/-- Lines are joined without a new comment, and what follows the stray parenthesis stays whole. -/
theorem normal_form_unbalanced :
    unbalanced.toList.countP isParenthesis < 2 ^ 31 ∧
      statements unbalanced = ["a(;  ;- -)", "c -) ; d"] ∧
      statements "a(;  ;- -);\nc -) ; d" = ["a(;  ;- -)", "c -) ; d"] ∧
      "a(;  ;- -)".toList.count '(' = "a(;  ;- -)".toList.count ')' := by
  have hfew : unbalanced.toList.countP isParenthesis < 2 ^ 31 := by cbv
  have hstatements : statements unbalanced = ["a(;  ;- -)", "c -) ; d"] := by cbv
  obtain ⟨hjoined, -, hbalanced⟩ := normal_form unbalanced
  rw [hstatements] at hjoined hbalanced
  exact ⟨hfew, hstatements, hjoined, hbalanced hfew _ List.mem_cons_self⟩

end Sql

end ReviewRota
