import Mathlib
import ReviewRota.Proofs.NormalForm

/-!
# Closing parentheses in front of a script

The depth may become negative, so parentheses that close nothing are a debt which the script behind
them has to pay back.  A script keeps its statements only if it has no semicolon that would end one;
with two statements or more it never does.
-/

namespace ReviewRota

namespace Text

variable {cs : List Char}

theorem trim_eq_nil_iff : trim cs = [] ↔ ∀ c ∈ cs, isBlankChar c = true := by
  constructor
  · intro h
    obtain ⟨before, after, hcs, hblank⟩ := exists_eq_append_trim cs
    rw [h, List.append_nil] at hcs
    rwa [hcs]
  · intro h
    have htrim : trim ([] ++ cs) = trim [] := trim_append_of_blank h
    exact htrim

end Text

namespace Sql

variable {cs lead before after : List Char} {c : Char} {s s' : Splitter} {script : String} {n : Nat}

def closings (n : Nat) : List Char := List.replicate n ')'

def behind (n : Nat) (script : String) : String :=
  String.ofList (closings n ++ '\n' :: script.toList)

/-- Whether every semicolon of a script ends a statement behind the parentheses exactly if it does
without them. -/
def SameEnds (n : Nat) (script : String) : Prop :=
  ∀ before after, code script = before ++ ';' :: after →
    (depthAfter 0 (closings n ++ ' ' :: before) = 0 ↔ depthAfter 0 before = 0)

structure Kept (n : Nat) (script : String) : Prop where
  count : (statements script).length ≤ (statements (behind n script)).length
  last : 2 ≤ (statements script).length →
    (statements (behind n script)).getLast? = (statements script).getLast?

theorem eq_of_mem_closings (h : c ∈ closings n) : c = ')' := List.eq_of_mem_replicate h

theorem undashed_closings (n : Nat) : Undashed (closings n) := by
  rw [undashed_iff]
  intro hwithin
  exact absurd (eq_of_mem_closings (hwithin.subset List.mem_cons_self)) (by decide)

theorem textLines_behind (n : Nat) (script : String) :
    textLines (behind n script).toList = closings n :: textLines script.toList := by
  have hline : '\n' ∉ closings n := fun h => absurd (eq_of_mem_closings h) (by decide)
  have hchomp : chomp (closings n) = closings n := by
    refine if_neg fun hlast => ?_
    exact absurd (eq_of_mem_closings (List.mem_of_getLast? hlast)) (by decide)
  obtain ⟨first, more, hsplit⟩ :=
    List.exists_cons_of_ne_nil (List.splitOn_ne_nil '\n' script.toList)
  rw [behind, String.toList_ofList, textLines, List.splitOn_append_cons_self_of_not_mem hline,
    textLines, hsplit, List.dropLast_cons_cons, List.getLast?_cons_cons, List.map_cons, hchomp]
  rfl

theorem keptLines_behind (n : Nat) (script : String) :
    keptLines (behind n script) = closings n :: keptLines script := by
  have htrim : Undashed (Text.trim (closings n)) :=
    List.IsChain.infix (undashed_closings n) (Text.trim_infix _)
  rw [keptLines, textLines_behind, List.filter_cons, htrim.dashed_eq_false]
  rfl

theorem code_behind (n : Nat) (script : String) : code (behind n script) = closings n ∧
      code script = [] ∨
    code (behind n script) = closings n ++ ' ' :: code script := by
  rw [code, keptLines_behind, List.map_cons, (undashed_closings n).cut_eq, code]
  cases (keptLines script).map cut with
  | nil => exact .inl ⟨by simp, rfl⟩
  | cons line rest => exact .inr (by simp [List.intercalate_cons_cons])

theorem statements_behind (n : Nat) (script : String) : statements (behind n script) =
    ((closings n ++ ' ' :: code script).foldl Splitter.feed .start).close.statements := by
  rw [statements_eq]
  rcases code_behind n script with ⟨hcode, hempty⟩ | hcode
  · rw [hcode, hempty, List.foldl_append]
    exact statements_feed_space.symm
  · rw [hcode]

theorem depthAfter_closings : depthAfter 0 (closings n ++ ' ' :: cs) =
    depthAfter 0 (closings n ++ cs) := by
  rw [depthAfter_append, depthAfter_append]
  rfl

theorem depthAfter_code_behind (n : Nat) (script : String) :
    depthAfter 0 (code (behind n script)) = depthAfter 0 (closings n ++ code script) := by
  rcases code_behind n script with ⟨hcode, hempty⟩ | hcode
  · rw [hcode, hempty, List.append_nil]
  · rw [hcode, depthAfter_closings]

theorem level_closings : level (closings n ++ cs) = level cs - n := by
  rw [level, level, List.count_append, List.count_append, closings, List.count_replicate,
    List.count_replicate_self]
  simp
  omega

theorem countP_closings (n : Nat) : (closings n).countP isParenthesis = n := by
  rw [closings, List.countP_replicate]
  rfl

/-! ## There is always a statement -/

namespace Splitter

def Begun (s : Splitter) : Prop := s.statements ≠ [] ∨ Text.trim s.current ≠ []

theorem begun_iff : s.Begun ↔ s.close.statements ≠ [] := by
  rw [statements_close, ne_eq, List.append_eq_nil_iff, Begun, ← not_and_or]
  simp [trimmed]

theorem Begun.feed (h : s.Begun) (c : Char) : (s.feed c).Begun := by
  by_cases hend : c = ';' ∧ s.depth = 0
  · rw [feed_of_end hend.1 hend.2]
    exact .inl (begun_iff.1 h)
  · rw [feed_of_open hend]
    refine h.imp_right fun hcurrent hempty => hcurrent ?_
    rw [Text.trim_eq_nil_iff] at hempty ⊢
    exact fun d hd => hempty d (List.mem_append_left _ hd)

theorem Begun.foldl (h : s.Begun) (cs : List Char) : (cs.foldl Splitter.feed s).Begun := by
  induction cs generalizing s with
  | nil => exact h
  | cons c rest ih => exact ih (h.feed c)

end Splitter

theorem trim_closings_ne_nil (hn : 0 < n) : Text.trim (closings n ++ cs) ≠ [] := by
  intro h
  have hmem : ')' ∈ closings n ++ cs :=
    List.mem_append_left _ (List.mem_replicate.2 ⟨Nat.ne_of_gt hn, rfl⟩)
  exact absurd (Text.trim_eq_nil_iff.1 h ')' hmem) (by decide)

theorem foldl_feed_closings (n : Nat) : (closings n ++ [' ']).foldl Splitter.feed .start =
    ⟨[], closings n ++ [' '], depthAfter 0 (closings n ++ [' '])⟩ := by
  refine foldl_feed_of_whole (s := .start) [] rfl fun before after h => ?_
  have hmem : ';' ∈ closings n ++ [' '] := by
    rw [List.nil_append] at h
    rw [h]
    exact List.mem_append_right _ List.mem_cons_self
  rcases List.mem_append.1 hmem with hmem | hmem
  · exact absurd (eq_of_mem_closings hmem) (by decide)
  · exact absurd (List.mem_singleton.1 hmem) (by decide)

theorem foldl_feed_code (n : Nat) (cs : List Char) :
    (closings n ++ ' ' :: cs).foldl Splitter.feed .start = cs.foldl Splitter.feed
      ⟨[], closings n ++ [' '], depthAfter 0 (closings n ++ [' '])⟩ := by
  rw [← foldl_feed_closings, ← List.foldl_append, List.append_assoc]
  rfl

theorem statements_behind_ne_nil (hn : 0 < n) (script : String) :
    statements (behind n script) ≠ [] := by
  rw [statements_behind, ← Splitter.begun_iff, foldl_feed_code]
  exact Splitter.Begun.foldl (.inr (trim_closings_ne_nil hn)) _

/-! ## Ends at the same semicolons -/

def Led (sts sts' : List String) : Prop :=
  ∃ first rest, sts' = first :: rest ∧ (sts = rest ∨ ∃ replaced, sts = replaced :: rest)

theorem Led.append {sts sts' : List String} (h : Led sts sts') (more : List String) :
    Led (sts ++ more) (sts' ++ more) := by
  obtain ⟨first, rest, rfl, rfl | ⟨replaced, rfl⟩⟩ := h
  · exact ⟨first, sts ++ more, rfl, .inl rfl⟩
  · exact ⟨first, rest ++ more, rfl, .inr ⟨replaced, rfl⟩⟩

theorem Led.length_le {sts sts' : List String} (h : Led sts sts') : sts.length ≤ sts'.length := by
  obtain ⟨first, rest, rfl, rfl | ⟨replaced, rfl⟩⟩ := h
  · exact Nat.le_succ _
  · exact Nat.le_refl _

theorem Led.getLast?_eq {sts sts' : List String} (h : Led sts sts') (hlength : 2 ≤ sts.length) :
    sts'.getLast? = sts.getLast? := by
  obtain ⟨first, rest, rfl, rfl | ⟨replaced, rfl⟩⟩ := h
  · cases sts with
    | nil => cases hlength
    | cons second more => rfl
  · cases rest with
    | nil => exact absurd hlength (by simp)
    | cons second more => rfl

theorem led_trimmed (h : Text.trim (lead ++ cs) ≠ []) :
    Led (trimmed [cs]) (trimmed [lead ++ cs]) := by
  refine ⟨String.ofList (Text.trim (lead ++ cs)), [], by simp [trimmed, h], ?_⟩
  by_cases hempty : Text.trim cs = []
  · exact .inl (by simp [trimmed, hempty])
  · exact .inr ⟨String.ofList (Text.trim cs), by simp [trimmed, hempty]⟩

/-- Two splitters at the same place, one of which had a text in front that is no blank: the text is
still in front of the first statement, or it has become part of one. -/
inductive Trails (lead : List Char) : Splitter → Splitter → Prop
  | inFront (current : List Char) (depth depth' : Int32) :
      Trails lead ⟨[], current, depth⟩ ⟨[], lead ++ current, depth'⟩
  | taken {sts sts' : List String} (h : Led sts sts') (current : List Char)
      (depth depth' : Int32) : Trails lead ⟨sts, current, depth⟩ ⟨sts', current, depth'⟩

theorem Trails.led_close (h : Trails lead s s') (hlead : ∀ cs, Text.trim (lead ++ cs) ≠ []) :
    Led s.close.statements s'.close.statements := by
  rw [Splitter.statements_close, Splitter.statements_close]
  cases h with
  | inFront current => exact led_trimmed (hlead current)
  | taken h current => exact h.append _

theorem Trails.feed (h : Trails lead s s') (hlead : ∀ cs, Text.trim (lead ++ cs) ≠ [])
    (hsame : c = ';' → (s'.depth = 0 ↔ s.depth = 0)) : Trails lead (s.feed c) (s'.feed c) := by
  by_cases hend : c = ';' ∧ s.depth = 0
  · have hled := h.led_close hlead
    rw [Splitter.feed_of_end hend.1 hend.2,
      Splitter.feed_of_end hend.1 ((hsame hend.1).2 hend.2)]
    exact .taken hled [] _ _
  · have hend' : ¬ (c = ';' ∧ s'.depth = 0) := fun h => hend ⟨h.1, (hsame h.1).1 h.2⟩
    rw [feed_of_open hend, feed_of_open hend']
    cases h with
    | inFront current =>
        dsimp only
        rw [List.append_assoc]
        exact .inFront _ _ _
    | taken h current => exact .taken h _ _ _

theorem Trails.foldl (h : Trails lead s s') (hlead : ∀ cs, Text.trim (lead ++ cs) ≠ [])
    (hsame : ∀ before after, cs = before ++ ';' :: after →
      (depthAfter s'.depth before = 0 ↔ depthAfter s.depth before = 0)) :
    Trails lead (cs.foldl Splitter.feed s) (cs.foldl Splitter.feed s') := by
  induction cs generalizing s s' with
  | nil => exact h
  | cons c rest ih =>
      have hnext : Trails lead (s.feed c) (s'.feed c) := by
        refine h.feed hlead fun hc => ?_
        subst hc
        exact hsame [] rest rfl
      refine ih hnext fun before after hrest => ?_
      rw [Splitter.depth_feed_eq, Splitter.depth_feed_eq]
      exact hsame (c :: before) after (by rw [hrest]; rfl)

theorem SameEnds.led (hn : 0 < n) (h : SameEnds n script) :
    Led (statements script) (statements (behind n script)) := by
  have hlead (cs : List Char) : Text.trim (closings n ++ [' '] ++ cs) ≠ [] := by
    rw [List.append_assoc]
    exact trim_closings_ne_nil hn
  have hstart : Trails (closings n ++ [' ']) .start
      ⟨[], closings n ++ [' '], depthAfter 0 (closings n ++ [' '])⟩ := by
    have hfront : Trails (closings n ++ [' ']) ⟨[], [], 0⟩ _ :=
      .inFront [] 0 (depthAfter 0 (closings n ++ [' ']))
    rwa [List.append_nil] at hfront
  rw [statements_eq, statements_behind, foldl_feed_code]
  refine (hstart.foldl hlead fun before after hcode => ?_).led_close hlead
  rw [← depthAfter_append, List.append_assoc]
  exact h before after hcode

theorem sameEnds_iff (hn : 0 < n)
    (hfew : n + (code script).countP isParenthesis < 2 ^ 31) :
    SameEnds n script ↔ ∀ before after, code script = before ++ ';' :: after →
      level before ≠ 0 ∧ level before ≠ n := by
  refine forall_congr' fun before => forall_congr' fun after => imp_congr_right fun hcode => ?_
  have hcount : n + before.countP isParenthesis < 2 ^ 31 := by
    rw [hcode, List.countP_append] at hfew
    omega
  have hbefore : depthAfter 0 before = 0 ↔ level before = 0 := by
    rw [depthAfter_eq_zero_iff (by omega), level]
    omega
  have hbehind : depthAfter 0 (closings n ++ ' ' :: before) = 0 ↔ level before = n := by
    rw [depthAfter_closings, depthAfter_eq_zero_iff]
    · have hlevel : level (closings n ++ before) = level before - n := level_closings
      rw [level] at hlevel
      omega
    · rwa [List.countP_append, countP_closings]
  rw [hbefore, hbehind]
  omega

theorem kept_iff (hn : 0 < n) (hfew : n + (code script).countP isParenthesis < 2 ^ 31) :
    Kept n script ↔ (statements script).length ≤ 1 := by
  constructor
  · intro h
    by_contra hseveral
    have hlast := h.last (by omega)
    have hne : statements script ≠ [] := List.ne_nil_of_length_pos (by omega)
    have hsome := List.getLast?_eq_some_getLast hne
    -- A last statement takes its script to its end, and the two ends are `n` apart.
    have hdepth : depthAfter 0 (closings n ++ code script) = depthAfter 0 (code script) := by
      rw [← depthAfter_code_behind, ← depthAfter_getLast? hsome,
        ← depthAfter_getLast? (hlast.trans hsome)]
    have hlevel := congrArg Int32.toInt hdepth
    rw [toInt_depthAfter, toInt_depthAfter (by omega), level_closings] at hlevel
    · omega
    · rwa [List.countP_append, countP_closings]
  · intro h
    have hsome := List.length_pos_iff.2 (statements_behind_ne_nil hn script)
    exact ⟨Nat.le_trans h hsome, fun hseveral => absurd hseveral (by omega)⟩

/-- If the same semicolons end statements then no statement is taken away.  But that is so only if
no semicolon has before it as many opening parentheses as closing ones, or `n` more; and no
statement is taken away, nor the last one changed, only if there is at most one. -/
theorem closings_in_front (script : String) (n : Nat) (hn : 0 < n) :
    (SameEnds n script → Kept n script) ∧
    (n + script.toList.countP isParenthesis < 2 ^ 31 →
      (SameEnds n script ↔ ∀ before after, code script = before ++ ';' :: after →
        level before ≠ 0 ∧ level before ≠ n) ∧
      (Kept n script ↔ (statements script).length ≤ 1)) := by
  refine ⟨fun h => ⟨(h.led hn).length_le, (h.led hn).getLast?_eq⟩, fun hfew => ?_⟩
  have hcode : n + (code script).countP isParenthesis < 2 ^ 31 :=
    Nat.lt_of_le_of_lt (Nat.add_le_add_left (countP_code_le script) n) hfew
  exact ⟨sameEnds_iff hn hcode, kept_iff hn hcode⟩

/-- A semicolon between the parentheses of the script ends nothing, with and without the two
parentheses in front. -/
theorem closings_in_front_bracketed : 0 < 2 ∧ 2 + "(a;b".toList.countP isParenthesis < 2 ^ 31 ∧
    SameEnds 2 "(a;b" ∧ Kept 2 "(a;b" := by
  have hfew : 2 + "(a;b".toList.countP isParenthesis < 2 ^ 31 := by cbv
  obtain ⟨hkept, hexact⟩ := closings_in_front "(a;b" 2 (by decide)
  have hsame : SameEnds 2 "(a;b" := by
    refine (hexact hfew).1.2 fun before after hcode => ?_
    have htext : code "(a;b" = ['(', 'a', ';', 'b'] := by cbv
    obtain ⟨hbefore, -⟩ : before = ['(', 'a'] ∧ after = ['b'] := by
      simpa [htext, List.cons_eq_append_iff] using hcode
    rw [hbefore]
    decide
  exact ⟨by decide, hfew, hsame, hkept hsame⟩

/-- One parenthesis takes the only end of a statement away. -/
theorem closings_swallow : ¬ ∀ (script : String) (n : Nat), 0 < n →
    SameEnds n script ∧ Kept n script := by
  intro h
  have hstatements : statements "a; b" = ["a", "b"] := by cbv
  have hbehind : statements (behind 1 "a; b") = [") a; b"] := by cbv
  have hcount := (h "a; b" 1 (by decide)).2.count
  rw [hstatements, hbehind] at hcount
  exact absurd hcount (by decide)

end Sql

end ReviewRota
