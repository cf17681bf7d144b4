import Mathlib
import ReviewRota.Proofs.Splitting

/-!
# Depth

The splitter's depth depends on nothing but the parentheses that it has read.  Every statement it
has finished began at depth zero, holds no semicolon at depth zero and ended at depth zero, and what
is being read began there too, whether or not the parentheses of the script match.
-/

namespace ReviewRota

namespace Text

variable {cs : List Char}

theorem trim_trim (cs : List Char) : trim (trim cs) = trim cs := by
  obtain ⟨before, after, hcs, hblank⟩ := exists_eq_append_trim cs
  have hbefore := fun c hc => hblank c (List.mem_append_left after hc)
  have hafter := fun c hc => hblank c (List.mem_append_right before hc)
  have htrim : trim (before ++ trim cs ++ after) = trim (trim cs) := by
    rw [trim_append_of_blank hafter, trim_append_left_of_blank hbefore]
  rw [← htrim, ← hcs]

theorem trim_infix (cs : List Char) : trim cs <:+: cs := by
  obtain ⟨before, after, hcs, -⟩ := exists_eq_append_trim cs
  exact ⟨before, after, hcs.symm⟩

end Text

namespace Sql

variable {cs before after read : List Char} {c : Char} {depth : Int32} {s : Splitter}

def turn (depth : Int32) (c : Char) : Int32 :=
  if c = '(' then depth + 1 else if c = ')' then Splitter.descend depth else depth

def depthAfter (depth : Int32) (cs : List Char) : Int32 := cs.foldl turn depth

theorem depthAfter_append :
    depthAfter depth (before ++ after) = depthAfter (depthAfter depth before) after :=
  List.foldl_append

theorem depthAfter_append_singleton :
    depthAfter depth (cs ++ [c]) = turn (depthAfter depth cs) c :=
  depthAfter_append

theorem turn_of_not_parenthesis (h : isParenthesis c = false) : turn depth c = depth := by
  rw [isParenthesis, Bool.or_eq_false_iff, decide_eq_false_iff_not, decide_eq_false_iff_not] at h
  rw [turn, if_neg h.1, if_neg h.2]

theorem depthAfter_of_countP_eq_zero (h : cs.countP isParenthesis = 0) :
    depthAfter depth cs = depth := by
  induction cs with
  | nil => rfl
  | cons c rest ih =>
      rw [List.countP_eq_zero] at h
      have hc : isParenthesis c = false := Bool.eq_false_iff.2 (h c List.mem_cons_self)
      change depthAfter (turn depth c) rest = depth
      rw [turn_of_not_parenthesis hc]
      exact ih (List.countP_eq_zero.2 fun d hd => h d (List.mem_cons_of_mem _ hd))

theorem isParenthesis_of_isBlankChar (h : Text.isBlankChar c = true) : isParenthesis c = false := by
  rw [isParenthesis, Bool.or_eq_false_iff, decide_eq_false_iff_not, decide_eq_false_iff_not]
  constructor <;> rintro rfl <;> exact absurd h (by decide)

theorem countP_eq_zero_of_blank (h : ∀ c ∈ cs, Text.isBlankChar c = true) :
    cs.countP isParenthesis = 0 :=
  List.countP_eq_zero.2 fun c hc => Bool.eq_false_iff.1 (isParenthesis_of_isBlankChar (h c hc))

theorem depthAfter_trim (cs : List Char) :
    depthAfter depth (Text.trim cs) = depthAfter depth cs := by
  obtain ⟨before, after, hcs, hblank⟩ := Text.exists_eq_append_trim cs
  have hbefore := countP_eq_zero_of_blank fun c hc => hblank c (List.mem_append_left after hc)
  have hafter := countP_eq_zero_of_blank fun c hc => hblank c (List.mem_append_right before hc)
  calc depthAfter depth (Text.trim cs)
      = depthAfter depth (before ++ Text.trim cs ++ after) := by
        rw [depthAfter_append, depthAfter_append, depthAfter_of_countP_eq_zero hbefore,
          depthAfter_of_countP_eq_zero hafter]
    _ = depthAfter depth cs := by rw [← hcs]

theorem Splitter.depth_feed_eq (s : Splitter) (c : Char) : (s.feed c).depth = turn s.depth c := by
  unfold feed turn
  split
  · rfl
  · split
    · rfl
    · split <;> rfl

/-- Without that many parentheses the counter has never left its range. -/
theorem toInt_depthAfter (hfew : cs.countP isParenthesis < 2 ^ 31) :
    (depthAfter 0 cs).toInt = level cs := by
  induction cs using List.reverseRecOn with
  | nil => rfl
  | append_singleton cs c ih =>
      have hcs : cs.countP isParenthesis < 2 ^ 31 := by
        rw [List.countP_append] at hfew
        exact Nat.lt_of_le_of_lt (Nat.le_add_right _ _) hfew
      have hread := @Splitter.depth_feed cs c ⟨[], [], depthAfter 0 cs⟩ (ih hcs) hfew
      rwa [depthAfter_append_singleton, ← Splitter.depth_feed_eq ⟨[], [], depthAfter 0 cs⟩]

theorem depthAfter_eq_zero_iff (hfew : cs.countP isParenthesis < 2 ^ 31) :
    depthAfter 0 cs = 0 ↔ cs.count '(' = cs.count ')' :=
  depth_eq_zero_iff (s := ⟨[], [], depthAfter 0 cs⟩) (toInt_depthAfter hfew)

/-! ## What the splitter has read -/

/-- No semicolon ends a statement inside a text that begins at depth zero. -/
def Whole (cs : List Char) : Prop :=
  ∀ before after, cs = before ++ ';' :: after → depthAfter 0 before ≠ 0

theorem whole_nil : Whole [] := by
  intro before after h
  cases before <;> cases h

theorem Whole.append_singleton (h : Whole cs) (hc : ¬ (c = ';' ∧ depthAfter 0 cs = 0)) :
    Whole (cs ++ [c]) := by
  intro before after hcs
  cases after using List.reverseRecOn with
  | nil =>
      obtain ⟨rfl, hc'⟩ := List.append_inj' hcs rfl
      cases hc'
      exact fun hzero => hc ⟨rfl, hzero⟩
  | append_singleton after d =>
      rw [← List.cons_append, ← List.append_assoc] at hcs
      exact h before after (List.append_inj' hcs rfl).1

theorem Whole.trim (h : Whole cs) : Whole (Text.trim cs) := by
  obtain ⟨lead, trail, hcs, hblank⟩ := Text.exists_eq_append_trim cs
  have hlead := countP_eq_zero_of_blank fun c hc => hblank c (List.mem_append_left trail hc)
  intro before after htrim
  have hdepth := h (lead ++ before) (after ++ trail) (by rw [hcs, htrim]; simp)
  rwa [depthAfter_append, depthAfter_of_countP_eq_zero hlead] at hdepth

structure Taken (text statement : List Char) : Prop where
  isInfix : statement <:+: text
  trimmed : Text.trim statement = statement
  nonempty : statement ≠ []
  whole : Whole statement

theorem Taken.append (h : Taken before cs) (after : List Char) : Taken (before ++ after) cs where
  isInfix := h.isInfix.trans (List.prefix_append before after).isInfix
  trimmed := h.trimmed
  nonempty := h.nonempty
  whole := h.whole

namespace Splitter

theorem depth_foldl_feed (s : Splitter) (cs : List Char) :
    (cs.foldl feed s).depth = depthAfter s.depth cs := by
  induction cs generalizing s with
  | nil => rfl
  | cons c rest ih => rw [List.foldl_cons, ih, depth_feed_eq]; rfl

/-- What a splitter knows of the text that it has read. -/
structure Follows (s : Splitter) (read : List Char) : Prop where
  current : s.current <:+ read
  whole : Whole s.current
  depth : s.depth = depthAfter 0 s.current
  taken : ∀ statement ∈ s.statements, Taken read statement.toList
  ended : ∀ statement ∈ s.statements, depthAfter 0 statement.toList = 0

theorem follows_start : Follows .start [] where
  current := List.suffix_rfl
  whole := whole_nil
  depth := rfl
  taken := nofun
  ended := nofun

theorem Follows.close (h : s.Follows read) : s.close.statements = s.statements ∧
      s.depth = 0 ∧ Text.trim s.current = [] ∨
    s.close.statements = s.statements ++ [String.ofList (Text.trim s.current)] ∧
      depthAfter 0 (Text.trim s.current) = s.depth ∧ Taken read (Text.trim s.current) := by
  rw [statements_close, depthAfter_trim, ← h.depth]
  by_cases hempty : Text.trim s.current = []
  · have hdepth : s.depth = 0 := by rw [h.depth, ← depthAfter_trim, hempty]; rfl
    exact .inl ⟨by simp [trimmed, hempty], hdepth, hempty⟩
  · refine .inr ⟨by simp [trimmed, hempty], rfl, ?_⟩
    exact ⟨(Text.trim_infix _).trans h.current.isInfix, Text.trim_trim _, hempty, h.whole.trim⟩

theorem Follows.taken_of_mem_close (h : s.Follows read) {statement : String}
    (hmem : statement ∈ s.close.statements) : Taken read statement.toList := by
  rcases h.close with ⟨hclose, -, -⟩ | ⟨hclose, -, htaken⟩
  · exact h.taken statement (hclose ▸ hmem)
  · rw [hclose] at hmem
    rcases List.mem_append.1 hmem with hmem | hmem
    · exact h.taken statement hmem
    · rwa [List.mem_singleton.1 hmem, String.toList_ofList]

theorem Follows.ended_of_mem_dropLast (h : s.Follows read) {statement : String}
    (hmem : statement ∈ s.close.statements.dropLast) : depthAfter 0 statement.toList = 0 := by
  rcases h.close with ⟨hclose, -, -⟩ | ⟨hclose, -, -⟩
  · exact h.ended statement (List.mem_of_mem_dropLast (hclose ▸ hmem))
  · rw [hclose, List.dropLast_concat] at hmem
    exact h.ended statement hmem

theorem Follows.depth_getLast? (h : s.Follows read) {statement : String}
    (hlast : s.close.statements.getLast? = some statement) :
    depthAfter 0 statement.toList = s.depth := by
  rcases h.close with ⟨hclose, hdepth, -⟩ | ⟨hclose, hdepth, -⟩
  · rw [hclose] at hlast
    rw [h.ended statement (List.mem_of_getLast? hlast), hdepth]
  · rw [hclose, List.getLast?_concat, Option.some_inj] at hlast
    rw [← hlast, String.toList_ofList, hdepth]

theorem Follows.feed (h : s.Follows read) (c : Char) : (s.feed c).Follows (read ++ [c]) := by
  have htaken (statement : String) (hmem : statement ∈ s.close.statements) :
      Taken (read ++ [c]) statement.toList := (h.taken_of_mem_close hmem).append [c]
  by_cases hend : c = ';' ∧ s.depth = 0
  · rw [feed_of_end hend.1 hend.2]
    refine ⟨List.nil_suffix, whole_nil, hend.2, htaken, fun statement hmem => ?_⟩
    rcases h.close with ⟨hclose, -, -⟩ | ⟨hclose, hdepth, -⟩
    · exact h.ended statement (hclose ▸ hmem)
    · rw [hclose] at hmem
      rcases List.mem_append.1 hmem with hmem | hmem
      · exact h.ended statement hmem
      · rw [List.mem_singleton.1 hmem, String.toList_ofList, hdepth, hend.2]
  · obtain ⟨hstatements, hcurrent⟩ := feed_of_not_end hend
    have hdepth : (s.feed c).depth = depthAfter 0 (s.current ++ [c]) := by
      rw [depth_feed_eq, h.depth, depthAfter_append_singleton]
    have hwhole : Whole (s.current ++ [c]) := h.whole.append_singleton (h.depth ▸ hend)
    obtain ⟨lead, hread⟩ := h.current
    refine ⟨?_, hcurrent ▸ hwhole, hcurrent ▸ hdepth, ?_, ?_⟩
    · exact ⟨lead, by rw [hcurrent, ← List.append_assoc, hread]⟩
    · exact fun statement hmem => (h.taken statement (hstatements ▸ hmem)).append [c]
    · exact fun statement hmem => h.ended statement (hstatements ▸ hmem)

theorem Follows.foldl (h : s.Follows read) (cs : List Char) :
    (cs.foldl Splitter.feed s).Follows (read ++ cs) := by
  induction cs generalizing s read with
  | nil => rwa [List.append_nil]
  | cons c rest ih => simpa using ih (h.feed c)

end Splitter

variable {script : String} {statement : String}

theorem follows_code (script : String) :
    ((code script).foldl Splitter.feed .start).Follows (code script) :=
  Splitter.follows_start.foldl (code script)

theorem taken_of_mem_statements (h : statement ∈ statements script) :
    Taken (code script) statement.toList := by
  rw [statements_eq] at h
  exact (follows_code script).taken_of_mem_close h

theorem ended_of_mem_dropLast (h : statement ∈ (statements script).dropLast) :
    depthAfter 0 statement.toList = 0 := by
  rw [statements_eq] at h
  exact (follows_code script).ended_of_mem_dropLast h

theorem depthAfter_getLast? (h : (statements script).getLast? = some statement) :
    depthAfter 0 statement.toList = depthAfter 0 (code script) := by
  rw [statements_eq] at h
  rw [(follows_code script).depth_getLast? h, Splitter.depth_foldl_feed]
  rfl

end Sql

end ReviewRota
