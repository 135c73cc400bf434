import Mathlib.Data.List.DropRight
import Mathlib.Data.List.Infix

/-!
# Blanks between other elements

A list is cut at its elements that are not blank: `gaps` are the stretches of blanks
between two of them. Shrinking runs of one blank, dropping blanks at the ends of lines
and stripping the list all work on each stretch alone.
-/
namespace Ekip.Lib.Gaps

variable {α : Type}

/-! ## Stretches -/

section Stretches

variable {blank : α → Bool} {s g : List α} {a : α}

def stretches (blank : α → Bool) (l : List α) : List (List α) := l.splitOnP fun a => !blank a

/-- The stretches that are neither first nor last. -/
def gaps (blank : α → Bool) (l : List α) : List (List α) := (stretches blank l).tail.dropLast

theorem stretches_ne_nil (l : List α) : stretches blank l ≠ [] := List.splitOnP_ne_nil _ l

theorem stretches_blank (hg : ∀ a ∈ g, blank a = true) : stretches blank g = [g] := by
  refine List.splitOnP_eq_singleton ?_
  intro a ha
  rw [hg a ha]
  rfl

theorem stretches_ink (hg : ∀ a ∈ g, blank a = true) (ha : blank a = false) (l : List α) :
    stretches blank (g ++ a :: l) = g :: stretches blank l := by
  have hsep : (!blank a) = true := by
    rw [ha]
    rfl
  have hfirst := stretches_blank hg
  unfold stretches at hfirst ⊢
  rw [List.splitOnP_append_cons g l hsep, hfirst]
  rfl

theorem blank_or_ink (blank : α → Bool) (l : List α) : (∀ a ∈ l, blank a = true) ∨
    ∃ g a rest, l = g ++ a :: rest ∧ (∀ b ∈ g, blank b = true) ∧ blank a = false := by
  induction l with
  | nil => exact .inl fun a ha => absurd ha List.not_mem_nil
  | cons b l ih =>
    cases hb : blank b with
    | false => exact .inr ⟨[], b, l, rfl, fun a ha => absurd ha List.not_mem_nil, hb⟩
    | true =>
      rcases ih with hall | ⟨g, a, rest, rfl, hg, ha⟩
      · exact .inl (List.forall_mem_cons.mpr ⟨hb, hall⟩)
      · exact .inr ⟨b :: g, a, rest, rfl, List.forall_mem_cons.mpr ⟨hb, hg⟩, ha⟩

/-- Stretch by stretch. -/
theorem ink_induction (blank : α → Bool) {motive : List α → Prop}
    (all : ∀ g, (∀ a ∈ g, blank a = true) → motive g)
    (ink : ∀ g a rest, (∀ b ∈ g, blank b = true) → blank a = false → motive rest →
      motive (g ++ a :: rest)) (l : List α) : motive l := by
  induction hn : l.length using Nat.strong_induction_on generalizing l with
  | h n ih =>
    rcases blank_or_ink blank l with hall | ⟨g, a, rest, rfl, hg, ha⟩
    · exact all l hall
    · refine ink g a rest hg ha (ih rest.length ?_ rest rfl)
      rw [← hn, List.length_append, List.length_cons]
      omega

theorem blank_of_mem_stretches {l : List α} (h : g ∈ stretches blank l) :
    ∀ a ∈ g, blank a = true := by
  induction l using ink_induction blank with
  | all first hfirst =>
    rw [stretches_blank hfirst] at h
    rw [List.mem_singleton.mp h]
    exact hfirst
  | ink first a rest hfirst ha ih =>
    rw [stretches_ink hfirst ha] at h
    rcases List.mem_cons.mp h with rfl | hrest
    · exact hfirst
    · exact ih hrest

theorem blank_of_mem_gaps {l : List α} (h : g ∈ gaps blank l) : ∀ a ∈ g, blank a = true :=
  blank_of_mem_stretches (List.mem_of_mem_tail (List.mem_of_mem_dropLast h))

/-- What does not hold an element stands on one side of it. -/
theorem infix_ink (ha : a ∉ s) (x y : List α) : s <:+: x ++ a :: y ↔ s <:+: x ∨ s <:+: y := by
  constructor
  · intro h
    rcases List.infix_append_iff.mp h with hx | hy | ⟨s₁, s₂, rfl, h₁, h₂⟩
    · exact .inl hx
    · rcases List.infix_cons_iff.mp hy with hprefix | hinfix
      · rcases List.prefix_cons_iff.mp hprefix with rfl | ⟨t, rfl, -⟩
        · exact .inl List.nil_infix
        · exact absurd List.mem_cons_self ha
      · exact .inr hinfix
    · rcases List.prefix_cons_iff.mp h₂ with rfl | ⟨t, rfl, -⟩
      · rw [List.append_nil]
        exact .inl h₁.isInfix
      · exact absurd (List.mem_append_right _ List.mem_cons_self) ha
  · rintro (hx | hy)
    · exact hx.trans (List.prefix_append _ _).isInfix
    · exact hy.trans ((List.suffix_cons a y).trans (List.suffix_append x _)).isInfix

theorem rdropWhile_ink (ha : blank a = false) (x y : List α) :
    (x ++ a :: y).rdropWhile blank = x ++ a :: y.rdropWhile blank := by
  induction y using List.reverseRecOn with
  | nil =>
    rw [List.rdropWhile_concat_neg _ _ _ (by rw [ha]; exact Bool.false_ne_true),
      List.rdropWhile_nil]
  | append_singleton y b ih =>
    have hassoc : x ++ a :: (y ++ [b]) = (x ++ a :: y) ++ [b] := by
      rw [List.append_assoc]
      rfl
    rw [hassoc, List.rdropWhile_concat, List.rdropWhile_concat]
    split
    · exact ih
    · exact hassoc.symm

theorem rdropWhile_cons (a : α) (l : List α) : (a :: l).rdropWhile blank =
    if l.rdropWhile blank = [] ∧ blank a = true then [] else a :: l.rdropWhile blank := by
  rcases blank_or_ink blank l with hall | ⟨g, b, rest, rfl, -, hb⟩
  · rw [List.rdropWhile_eq_nil_iff.mpr hall]
    by_cases ha : blank a = true
    · rw [if_pos ⟨rfl, ha⟩]
      exact List.rdropWhile_eq_nil_iff.mpr (List.forall_mem_cons.mpr ⟨ha, hall⟩)
    · have hink := rdropWhile_ink (Bool.eq_false_iff.mpr ha) [] l
      rw [List.rdropWhile_eq_nil_iff.mpr hall] at hink
      rw [if_neg fun h => ha h.2]
      exact hink
  · have hlong := rdropWhile_ink hb (a :: g) rest
    rw [rdropWhile_ink hb g rest, if_neg fun h => absurd h.1 (by simp)]
    exact hlong

theorem dropWhile_ink (hg : ∀ b ∈ g, blank b = true) (ha : blank a = false) (y : List α) :
    (g ++ a :: y).dropWhile blank = a :: y := by
  induction g with
  | nil =>
    show (a :: y).dropWhile blank = a :: y
    rw [List.dropWhile_cons_of_neg (by rw [ha]; exact Bool.false_ne_true)]
  | cons b g ih =>
    obtain ⟨hb, hrest⟩ := List.forall_mem_cons.mp hg
    rw [List.cons_append, List.dropWhile_cons_of_pos hb]
    exact ih hrest

theorem ink_not_mem (hs : ∀ b ∈ s, blank b = true) (ha : blank a = false) : a ∉ s := by
  intro hmem
  rw [hs a hmem] at ha
  exact Bool.noConfusion ha

theorem infix_rstrip (hne : s ≠ []) (hs : ∀ b ∈ s, blank b = true) (l : List α) :
    s <:+: l.rdropWhile blank ↔ ∃ g ∈ (stretches blank l).dropLast, s <:+: g := by
  induction l using ink_induction blank with
  | all g hg =>
    rw [List.rdropWhile_eq_nil_iff.mpr hg, stretches_blank hg, List.infix_nil]
    simpa using hne
  | ink g a rest hg ha ih =>
    rw [rdropWhile_ink ha, infix_ink (ink_not_mem hs ha), ih, stretches_ink hg ha,
      List.dropLast_cons_of_ne_nil (stretches_ne_nil rest), List.exists_mem_cons_iff]

/-- A run of blanks that stripping leaves stands in a gap. -/
theorem infix_strip (hne : s ≠ []) (hs : ∀ b ∈ s, blank b = true) (l : List α) :
    s <:+: (l.dropWhile blank).rdropWhile blank ↔ ∃ g ∈ gaps blank l, s <:+: g := by
  unfold gaps
  rcases blank_or_ink blank l with hall | ⟨g, a, rest, rfl, hg, ha⟩
  · rw [List.dropWhile_eq_nil_iff.mpr hall, stretches_blank hall, List.rdropWhile_nil,
      List.infix_nil]
    simpa using hne
  · have hhead : s <:+: (a :: rest).rdropWhile blank ↔ s <:+: rest.rdropWhile blank := by
      rw [show a :: rest = [] ++ a :: rest from rfl, rdropWhile_ink ha,
        infix_ink (ink_not_mem hs ha), List.infix_nil]
      exact or_iff_right hne
    rw [dropWhile_ink hg ha, hhead, infix_rstrip hne hs, stretches_ink hg ha]
    rfl

end Stretches

/-! ## Lines -/

/-- A line ends at the end of the text or before a feed. -/
theorem line_of_mem [BEq α] [LawfulBEq α] {feed : α} {line l : List α}
    (h : line ∈ l.splitOn feed) :
    feed ∉ line ∧ ∃ x y, l = x ++ line ++ y ∧ (y = [] ∨ ∃ z, y = feed :: z) := by
  induction l using ink_induction (fun a => a != feed) with
  | all g hg =>
    have hnone : feed ∉ g := by
      intro hmem
      simpa using hg feed hmem
    rw [List.splitOn_eq_singleton hnone] at h
    rw [List.mem_singleton.mp h]
    exact ⟨hnone, [], [], by simp, .inl rfl⟩
  | ink g a rest hg ha ih =>
    have hnone : feed ∉ g := by
      intro hmem
      simpa using hg feed hmem
    have hfeed : a = feed := by simpa using ha
    subst hfeed
    rw [List.splitOn_append_cons_self_of_not_mem hnone] at h
    rcases List.mem_cons.mp h with rfl | hrest
    · exact ⟨hnone, [], a :: rest, rfl, .inr ⟨rest, rfl⟩⟩
    · obtain ⟨hline, x, y, rfl, hy⟩ := ih hrest
      exact ⟨hline, g ++ a :: x, y, by simp, hy⟩

/-! ## Runs of feeds -/

section Shrink

variable [DecidableEq α] {feed a : α}

/-- Of every run of `feed`, two are kept. -/
def shrink (feed : α) : List α → List α
  | [] => []
  | a :: rest =>
    if a = feed ∧ (shrink feed rest).take 2 = [feed, feed] then shrink feed rest
    else a :: shrink feed rest

theorem shrink_cons (a : α) (l : List α) : shrink feed (a :: l) =
    if a = feed ∧ (shrink feed l).take 2 = [feed, feed] then shrink feed l
    else a :: shrink feed l := rfl

theorem shrink_cons_other (ha : a ≠ feed) (l : List α) :
    shrink feed (a :: l) = a :: shrink feed l := if_neg fun h => ha h.1

theorem shrink_ink (ha : a ≠ feed) (x y : List α) :
    shrink feed (x ++ a :: y) = shrink feed x ++ a :: shrink feed y := by
  induction x with
  | nil => exact shrink_cons_other ha y
  | cons b x ih =>
    have htake : (shrink feed x ++ a :: shrink feed y).take 2 = [feed, feed] ↔
        (shrink feed x).take 2 = [feed, feed] := by
      rcases hx : shrink feed x with _ | ⟨c, _ | ⟨d, rest⟩⟩
      · simp [ha]
      · simp [ha]
      · simp
    rw [List.cons_append, shrink_cons, shrink_cons, ih]
    by_cases hb : b = feed ∧ (shrink feed x).take 2 = [feed, feed]
    · rw [if_pos hb, if_pos ⟨hb.1, htake.mpr hb.2⟩]
    · rw [if_neg hb, if_neg fun h => hb ⟨h.1, htake.mp h.2⟩]
      rfl

theorem shrink_clean {l : List α} (h : feed ∉ l) (l' : List α) :
    shrink feed (l ++ l') = l ++ shrink feed l' := by
  induction l with
  | nil => rfl
  | cons a l ih =>
    have ha : a ≠ feed := by
      rintro rfl
      exact h List.mem_cons_self
    rw [List.cons_append, shrink_cons_other ha, ih fun hl => h (List.mem_cons_of_mem a hl)]
    rfl

theorem head_shrink (l : List α) : (shrink feed l).head? = l.head? := by
  induction l with
  | nil => rfl
  | cons a l ih =>
    rw [shrink_cons]
    by_cases hrun : a = feed ∧ (shrink feed l).take 2 = [feed, feed]
    · obtain ⟨rfl, htake⟩ := hrun
      rw [if_pos ⟨rfl, htake⟩]
      cases hl : shrink a l with
      | nil =>
        rw [hl] at htake
        exact absurd htake (by simp)
      | cons b rest =>
        rw [hl] at htake
        have hb : b = a := by simp_all
        rw [hb]
        rfl
    · rw [if_neg hrun]
      rfl

theorem shrink_run (n : Nat) {l : List α} (h : l.head? ≠ some feed) :
    shrink feed (List.replicate n feed ++ l) = List.replicate (min n 2) feed ++ shrink feed l := by
  have hhead : (shrink feed l).head? ≠ some feed := by
    rw [head_shrink]
    exact h
  induction n with
  | zero => rfl
  | succ n ih =>
    rw [List.replicate_succ, List.cons_append, shrink_cons, ih]
    rcases n with _ | _ | n
    · refine if_neg ?_
      rintro ⟨-, htwo⟩
      have hfirst := congrArg List.head?
        (show (shrink feed l).take 2 = [feed, feed] from htwo)
      rw [List.head?_take] at hfirst
      exact hhead hfirst
    · refine if_neg ?_
      rintro ⟨-, htwo⟩
      have hfirst := congrArg List.head?
        (List.cons.inj (show feed :: (shrink feed l).take 1 = [feed, feed] from htwo)).2
      rw [List.head?_take] at hfirst
      exact hhead hfirst
    · have htwo : min (n + 1 + 1) 2 = 2 := by omega
      have hthree : min (n + 1 + 1 + 1) 2 = 2 := by omega
      rw [htwo, hthree]
      exact if_pos ⟨rfl, rfl⟩

/-- All feeds stand next to each other. -/
def OneRun (feed : α) (l : List α) : Prop :=
  ∃ x n y, l = x ++ List.replicate n feed ++ y ∧ feed ∉ x ∧ feed ∉ y

theorem count_shrink_oneRun {l : List α} (h : OneRun feed l) :
    (shrink feed l).count feed ≤ 2 := by
  obtain ⟨x, n, y, rfl, hx, hy⟩ := h
  have hhead : y.head? ≠ some feed := by
    intro hsome
    exact hy (List.mem_of_head? hsome)
  have hclean : shrink feed y = y := by
    have hnil := shrink_clean hy []
    rwa [List.append_nil, show shrink feed [] = [] from rfl, List.append_nil] at hnil
  rw [List.append_assoc, shrink_clean hx, shrink_run n hhead, hclean, List.count_append,
    List.count_append, List.count_eq_zero_of_not_mem hx, List.count_eq_zero_of_not_mem hy,
    List.count_replicate_self]
  omega

theorem count_shrink_le (l : List α) : (shrink feed l).count feed ≤ l.count feed := by
  induction l with
  | nil => exact le_rfl
  | cons a l ih =>
    have hcons := List.count_le_count_cons (a := feed) (b := a) (l := l)
    unfold shrink
    split
    · omega
    · rw [List.count_cons, List.count_cons]
      omega

theorem le_count_shrink (l : List α) : min 2 (l.count feed) ≤ (shrink feed l).count feed := by
  induction l with
  | nil => exact Nat.zero_le _
  | cons a l ih =>
    unfold shrink
    by_cases hrun : a = feed ∧ (shrink feed l).take 2 = [feed, feed]
    · rw [if_pos hrun]
      have htwo : 2 ≤ (shrink feed l).count feed := by
        have hsub := (List.take_sublist 2 (shrink feed l)).count_le feed
        rw [hrun.2] at hsub
        simpa using hsub
      omega
    · rw [if_neg hrun, List.count_cons, List.count_cons]
      omega

theorem heads_of_take {l : List α} (h : (shrink feed l).take 2 = [feed, feed]) :
    ∃ rest, l = feed :: feed :: rest := by
  have hfirst : l.head? = some feed := by
    rw [← @head_shrink _ _ feed]
    have hhead := congrArg List.head? h
    rwa [List.head?_take] at hhead
  obtain ⟨l, rfl⟩ : ∃ l', l = feed :: l' := List.head?_eq_some_iff.mp hfirst
  have hsecond : l.head? = some feed := by
    rw [← @head_shrink _ _ feed]
    rw [shrink_cons] at h
    split at h
    · rename_i hrun
      have hhead := congrArg List.head? hrun.2
      rwa [List.head?_take] at hhead
    · have htail : (shrink feed l).take 1 = [feed] := (List.cons.inj h).2
      have hhead := congrArg List.head? htail
      rwa [List.head?_take] at hhead
  obtain ⟨l, rfl⟩ : ∃ l', l = feed :: l' := List.head?_eq_some_iff.mp hsecond
  exact ⟨l, rfl⟩

/-- Three feeds are left as soon as there are three that are not one run. -/
theorem count_shrink_le_two (l : List α) :
    (shrink feed l).count feed ≤ 2 ↔ l.count feed ≤ 2 ∨ OneRun feed l := by
  constructor
  · induction l with
    | nil => exact fun _ => .inl (Nat.zero_le _)
    | cons a l ih =>
      intro h
      rw [shrink_cons] at h
      by_cases ha : a = feed
      · subst ha
        by_cases htake : (shrink a l).take 2 = [a, a]
        · rw [if_pos ⟨rfl, htake⟩] at h
          obtain ⟨rest, rfl⟩ := heads_of_take htake
          rcases ih h with hcount | ⟨x, n, y, hl, hx, hy⟩
          · have hnone : a ∉ rest := by
              rw [List.count_cons_self, List.count_cons_self] at hcount
              exact List.count_eq_zero.mp (by omega)
            exact .inr ⟨[], 3, rest, rfl, List.not_mem_nil, hnone⟩
          · cases x with
            | nil =>
              refine .inr ⟨[], n + 1, y, ?_, List.not_mem_nil, hy⟩
              rw [hl]
              rfl
            | cons b x =>
              have hb : a = b := (List.cons.inj hl).1
              rw [hb] at hx
              exact absurd List.mem_cons_self hx
        · rw [if_neg fun hrun => htake hrun.2, List.count_cons_self] at h
          have hle := @le_count_shrink _ _ a l
          rw [List.count_cons_self]
          exact .inl (by omega)
      · rw [if_neg fun hrun => ha hrun.1, List.count_cons_of_ne ha] at h
        rw [List.count_cons_of_ne ha]
        rcases ih h with hcount | ⟨x, n, y, rfl, hx, hy⟩
        · exact .inl hcount
        · refine .inr ⟨a :: x, n, y, rfl, ?_, hy⟩
          intro hmem
          rcases List.mem_cons.mp hmem with heq | hin
          · exact ha heq.symm
          · exact hx hin
  · rintro (hcount | hrun)
    · exact le_trans (count_shrink_le l) hcount
    · exact count_shrink_oneRun hrun

theorem mem_of_mem_shrink {l : List α} {b : α} (h : b ∈ shrink feed l) : b ∈ l := by
  induction l with
  | nil => exact h
  | cons a l ih =>
    rw [shrink_cons] at h
    split at h
    · exact List.mem_cons_of_mem a (ih h)
    · rcases List.mem_cons.mp h with rfl | hrest
      · exact List.mem_cons_self
      · exact List.mem_cons_of_mem a (ih hrest)

theorem stretches_shrink {blank : α → Bool} (hfeed : blank feed = true) (l : List α) :
    stretches blank (shrink feed l) = (stretches blank l).map (shrink feed) := by
  induction l using ink_induction blank with
  | all g hg =>
    rw [stretches_blank hg, stretches_blank fun a ha => hg a (mem_of_mem_shrink ha)]
    rfl
  | ink g a rest hg ha ih =>
    have hne : a ≠ feed := by
      rintro rfl
      rw [hfeed] at ha
      exact Bool.noConfusion ha
    rw [shrink_ink hne, stretches_ink hg ha,
      stretches_ink (fun b hb => hg b (mem_of_mem_shrink hb)) ha, ih]
    rfl

theorem gaps_shrink {blank : α → Bool} (hfeed : blank feed = true) (l : List α) :
    gaps blank (shrink feed l) = (gaps blank l).map (shrink feed) := by
  unfold gaps
  rw [stretches_shrink hfeed, ← List.map_tail, List.map_dropLast]

end Shrink

/-! ## Ends of lines -/

section Trim

variable [DecidableEq α] {feed a : α} {blank : α → Bool} {ends : Bool}

/-- No blank stands before a feed; `ends` says whether the end of the list ends a line. -/
def trimTo (blank : α → Bool) (feed : α) (ends : Bool) : List α → List α
  | [] => []
  | a :: rest =>
    if (blank a ∧ a ≠ feed) ∧ ((trimTo blank feed ends rest = [] ∧ ends = true) ∨
        (trimTo blank feed ends rest).head? = some feed) then
      trimTo blank feed ends rest
    else a :: trimTo blank feed ends rest

theorem trimTo_cons (a : α) (l : List α) : trimTo blank feed ends (a :: l) =
    if (blank a ∧ a ≠ feed) ∧ ((trimTo blank feed ends l = [] ∧ ends = true) ∨
        (trimTo blank feed ends l).head? = some feed) then trimTo blank feed ends l
    else a :: trimTo blank feed ends l := rfl

theorem trimTo_cons_kept (ha : blank a = false ∨ a = feed) (l : List α) :
    trimTo blank feed ends (a :: l) = a :: trimTo blank feed ends l := by
  refine if_neg ?_
  rintro ⟨⟨hblank, hfeed⟩, -⟩
  rcases ha with hink | hsame
  · rw [hblank] at hink
    exact Bool.noConfusion hink
  · exact hfeed hsame

theorem mem_of_mem_trimTo {l : List α} {b : α} (h : b ∈ trimTo blank feed ends l) : b ∈ l := by
  induction l with
  | nil => exact h
  | cons a l ih =>
    rw [trimTo_cons] at h
    split at h
    · exact List.mem_cons_of_mem a (ih h)
    · rcases List.mem_cons.mp h with rfl | hrest
      · exact List.mem_cons_self
      · exact List.mem_cons_of_mem a (ih hrest)

theorem trimTo_ink (ha : blank a = false) (hne : a ≠ feed) (x y : List α) :
    trimTo blank feed ends (x ++ a :: y) =
      trimTo blank feed false x ++ a :: trimTo blank feed ends y := by
  induction x with
  | nil => exact trimTo_cons_kept (.inl ha) y
  | cons b x ih =>
    have hend : (trimTo blank feed false x ++ a :: trimTo blank feed ends y = [] ∧ ends = true ∨
        (trimTo blank feed false x ++ a :: trimTo blank feed ends y).head? = some feed) ↔
        (trimTo blank feed false x = [] ∧ false = true ∨
          (trimTo blank feed false x).head? = some feed) := by
      cases trimTo blank feed false x with
      | nil => simp [hne]
      | cons c rest => simp
    rw [List.cons_append, trimTo_cons, trimTo_cons, ih]
    by_cases hb : (blank b ∧ b ≠ feed) ∧ (trimTo blank feed false x = [] ∧ false = true ∨
        (trimTo blank feed false x).head? = some feed)
    · rw [if_pos hb, if_pos ⟨hb.1, hend.mpr hb.2⟩]
    · rw [if_neg hb, if_neg fun h => hb ⟨h.1, hend.mp h.2⟩]
      rfl

theorem stretches_trimTo (hfeed : blank feed = true) (l : List α) :
    (stretches blank (trimTo blank feed ends l)).dropLast =
      (stretches blank l).dropLast.map (trimTo blank feed false) := by
  induction l using ink_induction blank with
  | all g hg =>
    rw [stretches_blank hg, stretches_blank fun a ha => hg a (mem_of_mem_trimTo ha)]
    rfl
  | ink g a rest hg ha ih =>
    have hne : a ≠ feed := by
      rintro rfl
      rw [hfeed] at ha
      exact Bool.noConfusion ha
    rw [trimTo_ink ha hne, stretches_ink hg ha,
      stretches_ink (fun b hb => hg b (mem_of_mem_trimTo hb)) ha,
      List.dropLast_cons_of_ne_nil (stretches_ne_nil _), ih,
      List.dropLast_cons_of_ne_nil (stretches_ne_nil _)]
    rfl

theorem gaps_trimTo (hfeed : blank feed = true) (l : List α) :
    gaps blank (trimTo blank feed ends l) = (gaps blank l).map (trimTo blank feed false) := by
  unfold gaps
  rw [← List.tail_dropLast, stretches_trimTo hfeed, ← List.tail_dropLast, List.map_tail]

/-- In a stretch of blanks the feeds come first. -/
theorem trimTo_blank {g : List α} (hg : ∀ a ∈ g, blank a = true) :
    ∃ tail, trimTo blank feed false g = List.replicate (g.count feed) feed ++ tail ∧
      feed ∉ tail := by
  induction g with
  | nil => exact ⟨[], rfl, List.not_mem_nil⟩
  | cons a g ih =>
    obtain ⟨hblank, hrest⟩ := List.forall_mem_cons.mp hg
    obtain ⟨tail, htail, hclean⟩ := ih hrest
    by_cases ha : a = feed
    · subst ha
      refine ⟨tail, ?_, hclean⟩
      rw [trimTo_cons_kept (.inr rfl), htail, List.count_cons_self]
      rfl
    · rw [List.count_cons_of_ne ha, trimTo_cons]
      split
      · exact ⟨tail, htail, hclean⟩
      · rename_i hkept
        have hnone : g.count feed = 0 := by
          by_contra hsome
          refine hkept ⟨⟨hblank, ha⟩, .inr ?_⟩
          obtain ⟨n, hn⟩ := Nat.exists_eq_succ_of_ne_zero hsome
          rw [htail, hn]
          rfl
        rw [hnone] at htail ⊢
        refine ⟨a :: tail, ?_, ?_⟩
        · rw [htail]
          rfl
        · intro hmem
          rcases List.mem_cons.mp hmem with heq | hin
          · exact ha heq.symm
          · exact hclean hin

theorem run_trimTo {g : List α} (hg : ∀ a ∈ g, blank a = true) (n : Nat) :
    List.replicate n feed <:+: trimTo blank feed false g ↔ n ≤ g.count feed := by
  obtain ⟨tail, htail, hclean⟩ := @trimTo_blank _ _ feed _ _ hg
  rw [htail]
  constructor
  · intro h
    have hcount := h.count_le feed
    rw [List.count_append, List.count_replicate_self, List.count_replicate_self,
      List.count_eq_zero_of_not_mem hclean] at hcount
    omega
  · intro h
    have hprefix : List.replicate n feed <+: List.replicate (g.count feed) feed := by
      refine ⟨List.replicate (g.count feed - n) feed, ?_⟩
      rw [← List.replicate_add]
      congr 1
      omega
    exact List.IsPrefix.isInfix (List.IsPrefix.trans hprefix (List.prefix_append _ tail))

/-- No blank is left at the end of a line. -/
theorem trimTo_ends (l : List α) :
    ∀ x c y, trimTo blank feed ends l = x ++ c :: feed :: y → blank c = true → c = feed := by
  induction l with
  | nil =>
    intro x c y h
    exact absurd h.symm (by simp [trimTo])
  | cons a l ih =>
    intro x c y h hc
    rw [trimTo_cons] at h
    split at h
    · exact ih x c y h hc
    · rename_i hkept
      cases x with
      | nil =>
        obtain ⟨rfl, hrest⟩ := List.cons.inj h
        by_contra hne
        refine hkept ⟨⟨hc, hne⟩, .inr ?_⟩
        rw [hrest]
        rfl
      | cons b x => exact ih x c y (List.cons.inj h).2 hc

/-! The lines, cut off at their ends one by one. -/

theorem trimTo_line {line l : List α} (h : feed ∉ line)
    (hend : (trimTo blank feed ends l = [] ∧ ends = true) ∨
      (trimTo blank feed ends l).head? = some feed) :
    trimTo blank feed ends (line ++ l) = line.rdropWhile blank ++ trimTo blank feed ends l := by
  induction line with
  | nil => rw [List.rdropWhile_nil, List.nil_append, List.nil_append]
  | cons a line ih =>
    have hrest : feed ∉ line := fun hmem => h (List.mem_cons_of_mem a hmem)
    have ha : a ≠ feed := by
      rintro rfl
      exact h List.mem_cons_self
    rw [List.cons_append, trimTo_cons, ih hrest, rdropWhile_cons]
    by_cases hnil : line.rdropWhile blank = []
    · rw [hnil, List.nil_append]
      by_cases hblank : blank a = true
      · rw [if_pos ⟨⟨hblank, ha⟩, hend⟩, if_pos ⟨rfl, hblank⟩]
        rfl
      · rw [if_neg fun hb => hblank hb.1.1, if_neg fun hb => hblank hb.2]
        rfl
    · obtain ⟨b, rest, hcons⟩ := List.exists_cons_of_ne_nil hnil
      have hb : b ∈ line := by
        refine (List.rdropWhile_prefix (p := blank) line).subset ?_
        rw [hcons]
        exact List.mem_cons_self
      rw [hcons, if_neg, if_neg fun hb => absurd hb.1 (by simp)]
      · rfl
      · rintro ⟨-, ⟨hempty, -⟩ | hhead⟩
        · exact absurd hempty (by simp)
        · have hbf : b = feed := by simpa using hhead
          rw [hbf] at hb
          exact hrest hb

/-- Cutting off the lines one by one. -/
theorem join_lines (l : List α) :
    [feed].intercalate ((l.splitOn feed).map fun line => line.rdropWhile blank) =
      trimTo blank feed true l := by
  induction l using ink_induction (fun a => a != feed) with
  | all line hline =>
    have hnone : feed ∉ line := by
      intro hmem
      simpa using hline feed hmem
    have htrim := @trimTo_line _ _ _ blank true _ [] hnone (.inl ⟨rfl, rfl⟩)
    rw [List.append_nil] at htrim
    rw [List.splitOn_eq_singleton hnone, htrim]
    simp [List.intercalate, trimTo]
  | ink line a rest hline ha ih =>
    have hnone : feed ∉ line := by
      intro hmem
      simpa using hline feed hmem
    have hfeed : a = feed := by simpa using ha
    subst hfeed
    have hkept : trimTo blank a true (a :: rest) = a :: trimTo blank a true rest :=
      trimTo_cons_kept (.inr rfl) rest
    have htrim := @trimTo_line _ _ _ blank true _ (a :: rest) hnone
      (.inr (by rw [hkept]; rfl))
    rw [htrim, hkept, ← ih, List.splitOn_append_cons_self_of_not_mem hnone, List.map_cons]
    obtain ⟨line', lines, hlines⟩ := List.exists_cons_of_ne_nil (List.splitOn_ne_nil a rest)
    rw [hlines]
    simp [List.intercalate]

end Trim

/-! ## Dropping elements -/

/-- The first list is the second without some droppable elements. -/
inductive Thinned (droppable : α → Prop) : List α → List α → Prop
  | nil : Thinned droppable [] []
  | keep (a : α) {s l : List α} (h : Thinned droppable s l) : Thinned droppable (a :: s) (a :: l)
  | drop {a : α} {s l : List α} (ha : droppable a) (h : Thinned droppable s l) :
      Thinned droppable s (a :: l)

namespace Thinned

variable {droppable : α → Prop} {s l m : List α}

theorem refl (l : List α) : Thinned droppable l l := by
  induction l with
  | nil => exact .nil
  | cons a l ih => exact .keep a ih

theorem trans (h : Thinned droppable s m) (h' : Thinned droppable m l) : Thinned droppable s l := by
  induction h' generalizing s with
  | nil => exact h
  | keep a _ ih =>
    cases h with
    | keep _ h => exact .keep a (ih h)
    | drop ha h => exact .drop ha (ih h)
  | drop ha _ ih => exact .drop ha (ih h)

theorem mono {more : α → Prop} (h : Thinned droppable s l) (hmore : ∀ a, droppable a → more a) :
    Thinned more s l := by
  induction h with
  | nil => exact .nil
  | keep a _ ih => exact .keep a ih
  | drop ha _ ih => exact .drop (hmore _ ha) ih

theorem sublist (h : Thinned droppable s l) : s.Sublist l := by
  induction h with
  | nil => exact .slnil
  | keep a _ ih => exact ih.cons_cons a
  | drop _ _ ih => exact ih.cons _

theorem append (h : Thinned droppable s l) {s' l' : List α} (h' : Thinned droppable s' l') :
    Thinned droppable (s ++ s') (l ++ l') := by
  induction h with
  | nil => exact h'
  | keep a _ ih => exact .keep a ih
  | drop ha _ ih => exact .drop ha ih

theorem all {l : List α} (h : ∀ a ∈ l, droppable a) : Thinned droppable [] l := by
  induction l with
  | nil => exact .nil
  | cons a l ih =>
    obtain ⟨ha, hl⟩ := List.forall_mem_cons.mp h
    exact .drop ha (ih hl)

theorem filter {keep : α → Bool} (h : ∀ a, keep a = false → droppable a) (l : List α) :
    Thinned droppable (l.filter keep) l := by
  induction l with
  | nil => exact .nil
  | cons a l ih =>
    cases ha : keep a with
    | true =>
      rw [List.filter_cons_of_pos ha]
      exact .keep a ih
    | false =>
      rw [List.filter_cons_of_neg (by rw [ha]; exact Bool.false_ne_true)]
      exact .drop (h a ha) ih

theorem strip {blank : α → Bool} (h : ∀ a, blank a = true → droppable a) (l : List α) :
    Thinned droppable ((l.dropWhile blank).rdropWhile blank) l := by
  have hleft : Thinned droppable (l.dropWhile blank) l := by
    have hall := append
      (all (l := l.takeWhile blank) fun a ha => h a (List.mem_takeWhile_imp ha))
      (refl (l.dropWhile blank))
    rw [List.takeWhile_append_dropWhile] at hall
    exact hall
  have hright : Thinned droppable ((l.dropWhile blank).rdropWhile blank) (l.dropWhile blank) := by
    have hall := append (refl ((l.dropWhile blank).rdropWhile blank))
      (all (l := (l.dropWhile blank).rtakeWhile blank) fun a ha => h a (List.mem_rtakeWhile_imp ha))
    rw [List.append_nil, List.rdropWhile_append_rtakeWhile] at hall
    exact hall
  exact hright.trans hleft

theorem shrink [DecidableEq α] {feed : α} (h : droppable feed) (l : List α) :
    Thinned droppable (Gaps.shrink feed l) l := by
  induction l with
  | nil => exact .nil
  | cons a l ih =>
    rw [shrink_cons]
    split
    · rename_i hrun
      rw [hrun.1]
      exact .drop h ih
    · exact .keep a ih

theorem trimTo [DecidableEq α] {blank : α → Bool} {feed : α} {ends : Bool}
    (h : ∀ a, blank a = true → droppable a) (l : List α) :
    Thinned droppable (Gaps.trimTo blank feed ends l) l := by
  induction l with
  | nil => exact .nil
  | cons a l ih =>
    rw [trimTo_cons]
    split
    · rename_i hend
      exact .drop (h a hend.1.1) ih
    · exact .keep a ih

end Thinned

end Ekip.Lib.Gaps
