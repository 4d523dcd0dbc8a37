import Mathlib.Data.List.TakeWhile
import Mathlib.Data.Set.Card
import OnePage.Proofs.LogLines
import OnePage.Text.Blank

/-! # Where texts are cut

What cutting a text does, told by the parts: a text cut behind its first elements of a kind
(`Cut`), the first word of a text (`FirstWord`), the runs of elements that do not separate
(`Run.IsMaximal`), the lines of a text (`split_eq_iff`) and a text without the white space around it
(`Trims`). Each of these has the parts in one way only, and the function that cuts finds them. -/

namespace OnePage.Text
variable {α : Type}

/-! ## The first elements of a kind -/

/-- A list is cut behind its first elements with a property, as many as there are. -/
structure Cut (p : α → Bool) (as front rest : List α) : Prop where
  append : as = front ++ rest
  front : ∀ a ∈ front, p a = true
  rest : ∀ a ∈ rest.head?, p a = false

section
variable {p : α → Bool} {as front rest : List α}

theorem cut (p : α → Bool) (as : List α) : Cut p as (as.takeWhile p) (as.dropWhile p) where
  append := List.takeWhile_append_dropWhile.symm
  front _ ha := List.mem_takeWhile_imp ha
  rest a ha := by
    have h := List.head?_dropWhile_not p as
    rwa [Option.mem_def.1 ha] at h

theorem takeWhile_eq_nil (h : ∀ a ∈ rest.head?, p a = false) : rest.takeWhile p = [] := by
  cases rest with
  | nil => rfl
  | cons a rest => simp [h a rfl]

theorem dropWhile_eq_self (h : ∀ a ∈ rest.head?, p a = false) : rest.dropWhile p = rest := by
  cases rest with
  | nil => rfl
  | cons a rest => simp [h a rfl]

theorem Cut.takeWhile_eq (H : Cut p as front rest) : as.takeWhile p = front := by
  rw [H.append, List.takeWhile_append_of_pos H.front, takeWhile_eq_nil H.rest, List.append_nil]

theorem Cut.dropWhile_eq (H : Cut p as front rest) : as.dropWhile p = rest := by
  rw [H.append, List.dropWhile_append_of_pos H.front, dropWhile_eq_self H.rest]

/-- The first elements with a property are the longest beginning that has only such. -/
theorem takeWhile_eq_iff : as.takeWhile p = front ↔
    front <+: as ∧ (∀ a ∈ front, p a = true) ∧
      ∀ other, other <+: as → (∀ a ∈ other, p a = true) → other.length ≤ front.length := by
  have hlongest : ∀ other, other <+: as → (∀ a ∈ other, p a = true) →
      other <+: as.takeWhile p := by
    rintro other ⟨more, rfl⟩ hp
    rw [List.takeWhile_append_of_pos hp]
    exact List.prefix_append ..
  constructor
  · rintro rfl
    exact ⟨List.takeWhile_prefix p, (cut p as).front,
      fun other hother hp => (hlongest other hother hp).length_le⟩
  · rintro ⟨hfront, hp, hle⟩
    have hlen := hle _ (List.takeWhile_prefix p) (cut p as).front
    exact ((hlongest front hfront hp).eq_of_length_le hlen).symm

end

/-! ## Words -/

/-- The first word of a list: what separates before it, the word, and what follows. -/
structure FirstWord (separates : α → Bool) (as gap word rest : List α) : Prop where
  append : as = gap ++ (word ++ rest)
  gap : ∀ a ∈ gap, separates a = true
  ne_nil : word ≠ []
  word : ∀ a ∈ word, separates a = false
  rest : ∀ a ∈ rest.head?, separates a = true

section
variable {separates : α → Bool} {as gap gap' word word' rest rest' : List α}

namespace FirstWord

theorem cut_gap (H : FirstWord separates as gap word rest) :
    Cut separates as gap (word ++ rest) where
  append := H.append
  front := H.gap
  rest a ha := by
    rw [List.head?_append_of_ne_nil _ H.ne_nil] at ha
    exact H.word a (List.mem_of_mem_head? ha)

theorem cut_word (H : FirstWord separates as gap word rest) :
    Cut (fun a => !separates a) (word ++ rest) word rest where
  append := rfl
  front a ha := by simp [H.word a ha]
  rest a ha := by simp [H.rest a ha]

/-- There is one first word only. -/
theorem unique (H : FirstWord separates as gap word rest)
    (H' : FirstWord separates as gap' word' rest') : gap = gap' ∧ word = word' ∧ rest = rest' := by
  have hafter : word ++ rest = word' ++ rest' :=
    H.cut_gap.dropWhile_eq.symm.trans H'.cut_gap.dropWhile_eq
  refine ⟨H.cut_gap.takeWhile_eq.symm.trans H'.cut_gap.takeWhile_eq, ?_, ?_⟩
  · rw [← H.cut_word.takeWhile_eq, hafter, H'.cut_word.takeWhile_eq]
  · rw [← H.cut_word.dropWhile_eq, hafter, H'.cut_word.dropWhile_eq]

end FirstWord

/-- A list has a first word, unless all of it separates. -/
theorem exists_firstWord (separates : α → Bool) (as : List α) :
    (∀ a ∈ as, separates a = true) ∨ ∃ gap word rest, FirstWord separates as gap word rest := by
  have Hgap := cut separates as
  have Hword := cut (fun a => !separates a) (as.dropWhile separates)
  rw [or_iff_not_imp_left]
  intro hnot
  refine ⟨_, _, _, ⟨by rw [← Hword.append, ← Hgap.append], Hgap.front, fun hnil => hnot ?_,
    fun a ha => by simpa using Hword.front a ha, fun a ha => by simpa using Hword.rest a ha⟩⟩
  -- without a word nothing is left behind what separates
  rcases hrest : as.dropWhile separates with _ | ⟨a, rest⟩
  · exact List.dropWhile_eq_nil_iff.1 hrest
  · rw [hrest] at hnil
    have ha := Hgap.rest a (by rw [hrest]; rfl)
    simp [ha] at hnil

theorem tokens_cons_of_separates {a : α} (ha : separates a = true) (as : List α) :
    tokens separates (a :: as) = tokens separates as := by
  simp [tokens, split_cons_of_separates ha]

theorem tokens_append (h : ∀ a ∈ gap, separates a = true) (as : List α) :
    tokens separates (gap ++ as) = tokens separates as := by
  induction gap with
  | nil => rfl
  | cons a gap ih =>
    obtain ⟨ha, h⟩ := List.forall_mem_cons.1 h
    rw [List.cons_append, tokens_cons_of_separates ha, ih h]

theorem tokens_eq_nil (h : ∀ a ∈ as, separates a = true) : tokens separates as = [] := by
  rw [← as.append_nil, tokens_append h]
  rfl

/-- The tokens of a list are its first word and the tokens of what follows. -/
theorem FirstWord.tokens_eq (H : FirstWord separates as gap word rest) :
    tokens separates as = word :: tokens separates rest := by
  have hword : word.isEmpty = false := List.isEmpty_eq_false_iff.2 H.ne_nil
  rw [H.append, tokens_append H.gap]
  cases hrest : rest with
  | nil =>
    rw [List.append_nil, tokens, split_eq_singleton H.word]
    simp [hword, tokens]
  | cons a rest =>
    have ha := H.rest a (by rw [hrest]; rfl)
    rw [tokens_cons_of_separates ha, tokens, split_append_cons H.word ha]
    simp [hword, tokens]

theorem exists_firstWord_of_tokens {words : List (List α)}
    (h : tokens separates as = word :: words) :
    ∃ gap rest, FirstWord separates as gap word rest ∧ tokens separates rest = words := by
  rcases exists_firstWord separates as with hall | ⟨gap, word', rest, H⟩
  · rw [tokens_eq_nil hall] at h
    cases h
  · rw [H.tokens_eq] at h
    cases h
    exact ⟨gap, rest, H, rfl⟩

end

/-! ## Runs -/

/-- A stretch of a list, with what is before it and after it. -/
structure Run (α : Type) where
  before : List α
  run : List α
  after : List α

/-- A stretch of elements that do not separate, and that cannot be made longer. -/
structure Run.IsMaximal (separates : α → Bool) (as : List α) (r : Run α) : Prop where
  append : as = r.before ++ (r.run ++ r.after)
  ne_nil : r.run ≠ []
  run : ∀ a ∈ r.run, separates a = false
  before : ∀ a ∈ r.before.getLast?, separates a = true
  after : ∀ a ∈ r.after.head?, separates a = true

def maximalRuns (separates : α → Bool) (as : List α) : Set (Run α) :=
  {r | r.IsMaximal separates as}

section
variable {separates : α → Bool} {as gap word rest : List α}

/-- A run of what follows a list, as a run of both. -/
def Run.behind (as : List α) (r : Run α) : Run α := { r with before := as ++ r.before }

theorem Run.behind_injective (as : List α) : Function.Injective (Run.behind as) := by
  rintro ⟨before, run, after⟩ ⟨before', run', after'⟩ h
  simpa [behind] using h

theorem maximalRuns_eq_empty (h : ∀ a ∈ as, separates a = true) :
    maximalRuns separates as = ∅ := by
  refine Set.eq_empty_iff_forall_notMem.2 fun r H => ?_
  obtain ⟨a, ha⟩ := List.exists_mem_of_ne_nil _ H.ne_nil
  have hmem : a ∈ as := by simp [H.append, ha]
  exact Bool.false_ne_true ((H.run a ha).symm.trans (h a hmem))

namespace FirstWord

/-- The first run is the first word. -/
theorem isMaximal (H : FirstWord separates as gap word rest) :
    (Run.mk gap word rest).IsMaximal separates as where
  append := H.append
  ne_nil := H.ne_nil
  run := H.word
  before a ha := H.gap a (List.mem_of_mem_getLast? ha)
  after := H.rest

theorem isMaximal_behind (H : FirstWord separates as gap word rest) {r : Run α}
    (hr : r.IsMaximal separates rest) : (r.behind (gap ++ word)).IsMaximal separates as where
  append := by rw [H.append, hr.append]; simp [Run.behind]
  ne_nil := hr.ne_nil
  run := hr.run
  before a ha := by
    have hne : r.before ≠ [] := fun hnil => by
      -- without anything between them the word and the run would be one
      obtain ⟨b, run, hrun⟩ := List.exists_cons_of_ne_nil hr.ne_nil
      have hb := H.rest b (by rw [hr.append, hnil, hrun]; rfl)
      exact Bool.false_ne_true ((hr.run b (by simp [hrun])).symm.trans hb)
    rw [Run.behind, List.getLast?_append_of_ne_nil _ hne] at ha
    exact hr.before a ha
  after := hr.after

/-- No run begins within what separates. -/
theorem exists_between (H : FirstWord separates as gap word rest) {r : Run α}
    (hr : r.IsMaximal separates as) :
    ∃ between, r.before = gap ++ between ∧ word ++ rest = between ++ (r.run ++ r.after) := by
  rcases List.append_eq_append_iff.1 (H.append.symm.trans hr.append) with h | ⟨more, hgap, htail⟩
  · exact h
  · cases more with
    | nil => exact ⟨[], by simpa using hgap.symm, htail.symm⟩
    | cons b more =>
      obtain ⟨c, run, hrun⟩ := List.exists_cons_of_ne_nil hr.ne_nil
      rw [hrun] at htail
      obtain ⟨rfl, -⟩ := List.cons.inj htail
      have hsep := H.gap c (by simp [hgap])
      exact absurd ((hr.run c (by simp [hrun])).symm.trans hsep) Bool.false_ne_true

/-- A run is the first word, or is behind it. -/
theorem isMaximal_cases (H : FirstWord separates as gap word rest) {r : Run α}
    (hr : r.IsMaximal separates as) :
    r = ⟨gap, word, rest⟩ ∨
      ∃ r' : Run α, r'.IsMaximal separates rest ∧ r'.behind (gap ++ word) = r := by
  obtain ⟨between, hbefore, htail⟩ := H.exists_between hr
  rcases List.eq_nil_or_concat' between with rfl | ⟨init, last, hlast⟩
  · have hbefore : r.before = gap := by simpa using hbefore
    have Hr : FirstWord separates as gap r.run r.after :=
      ⟨hbefore ▸ hr.append, H.gap, hr.ne_nil, hr.run, hr.after⟩
    obtain ⟨-, rfl, rfl⟩ := H.unique Hr
    exact .inl (hbefore ▸ rfl)
  · have hsep : separates last = true := hr.before last (by simp [hbefore, hlast])
    rcases List.append_eq_append_iff.1 htail with ⟨between', rfl, hrest⟩ | ⟨more, hword, -⟩
    · refine .inr ⟨⟨between', r.run, r.after⟩, ⟨hrest, hr.ne_nil, hr.run, fun a ha => ?_, hr.after⟩,
        ?_⟩
      · have hne : between' ≠ [] := fun hnil => by simp [hnil] at ha
        refine hr.before a ?_
        rw [hbefore, ← List.append_assoc, List.getLast?_append_of_ne_nil _ hne]
        exact ha
      · rw [Run.behind, List.append_assoc, ← hbefore]
    · -- the run would begin within the word
      have hin := H.word last (by simp [hword, hlast])
      exact absurd (hin.symm.trans hsep) Bool.false_ne_true

end FirstWord

/-- There are as many runs as there are tokens. -/
theorem encard_maximalRuns (separates : α → Bool) (as : List α) :
    (maximalRuns separates as).encard = (tokens separates as).length := by
  generalize htokens : tokens separates as = words
  induction words generalizing as with
  | nil =>
    rcases exists_firstWord separates as with hall | ⟨gap, word, rest, H⟩
    · simp [maximalRuns_eq_empty hall]
    · rw [H.tokens_eq] at htokens
      cases htokens
  | cons word words ih =>
    obtain ⟨gap, rest, H, hrest⟩ := exists_firstWord_of_tokens htokens
    have hruns : maximalRuns separates as =
        insert ⟨gap, word, rest⟩ (Run.behind (gap ++ word) '' maximalRuns separates rest) := by
      ext r
      constructor
      · exact H.isMaximal_cases
      · rintro (rfl | ⟨r', hr', rfl⟩)
        · exact H.isMaximal
        · exact H.isMaximal_behind hr'
    have hfirst : (⟨gap, word, rest⟩ : Run α) ∉
        Run.behind (gap ++ word) '' maximalRuns separates rest := by
      rintro ⟨r', -, hr'⟩
      have hbefore : gap ++ word ++ r'.before = gap := congrArg Run.before hr'
      have hnil : word = [] ∧ r'.before = [] := by simpa using hbefore
      exact H.ne_nil hnil.1
    rw [hruns, Set.encard_insert_of_notMem hfirst, (Run.behind_injective _).encard_image,
      ih _ hrest]
    simp

end

/-! ## Parts -/

theorem split_eq_splitOnP (separates : α → Bool) (as : List α) :
    split separates as = as.splitOnP separates := by
  induction as with
  | nil => simp
  | cons a as ih =>
    rw [List.splitOnP_cons_eq_if_modifyHead, ← ih, split]
    cases hparts : split separates as with
    | nil => exact absurd hparts (split_ne_nil _ _)
    | cons part parts => rfl

/-- The parts of a list are those that nothing separates within, and that joined together make up
the list. -/
theorem split_eq_iff [BEq α] [LawfulBEq α] {s : α} {as : List α} {parts : List (List α)} :
    split (· == s) as = parts ↔
      parts ≠ [] ∧ (∀ part ∈ parts, s ∉ part) ∧ as = [s].intercalate parts := by
  constructor
  · rintro rfl
    refine ⟨split_ne_nil _ _, fun part hpart hs => ?_, ?_⟩
    · simpa using not_separator_of_mem_split hpart hs
    · rw [split_eq_splitOnP]
      exact (List.intercalate_splitOn s).symm
  · rintro ⟨hne, hs, rfl⟩
    rw [split_eq_splitOnP]
    exact List.splitOn_intercalate s hs hne

/-! ## White space -/

/-- What is left of a text without the white space at its two ends. -/
inductive Trims (s : List Char) : List Char → Prop
  | intro {before after : List Char} (hbefore : ∀ c ∈ before, isBlank c = true)
    (hafter : ∀ c ∈ after, isBlank c = true) (hhead : ∀ c ∈ s.head?, isBlank c = false)
    (hlast : ∀ c ∈ s.getLast?, isBlank c = false) : Trims s (before ++ (s ++ after))

theorem trims_trim (cs : List Char) : Trims (trim cs) cs := by
  have Hstart : Cut isBlank cs (cs.takeWhile isBlank) (trimStart cs) := cut isBlank cs
  have Hend := cut isBlank (trimStart cs).reverse
  have hsplit : trimStart cs = trim cs ++ ((trimStart cs).reverse.takeWhile isBlank).reverse := by
    have h := congrArg List.reverse Hend.append
    rwa [List.reverse_append, List.reverse_reverse] at h
  have H : Trims (trim cs) (cs.takeWhile isBlank ++
      (trim cs ++ ((trimStart cs).reverse.takeWhile isBlank).reverse)) := by
    refine .intro Hstart.front (fun c hc => Hend.front c (List.mem_reverse.1 hc))
      (fun c hc => Hstart.rest c ?_) (fun c hc => Hend.rest c ?_)
    · rw [hsplit, List.head?_append_of_ne_nil _ (fun hnil => by simp [hnil] at hc)]
      exact hc
    · rw [← List.getLast?_reverse]
      exact hc
  rwa [← hsplit, ← Hstart.append] at H

theorem trim_eq_of_trims {s cs : List Char} (H : Trims s cs) : trim cs = s := by
  obtain @⟨before, after, hbefore, hafter, hhead, hlast⟩ := H
  rw [trim, trimStart, List.dropWhile_append_of_pos hbefore]
  rcases List.eq_nil_or_concat' s with rfl | ⟨init, c, hs⟩
  · rw [List.nil_append, List.dropWhile_eq_nil_iff.2 hafter]
    rfl
  · have hne : s ≠ [] := by simp [hs]
    have hhead' : ∀ c ∈ (s ++ after).head?, isBlank c = false := by
      rwa [List.head?_append_of_ne_nil _ hne]
    have hlast' : ∀ c ∈ s.reverse.head?, isBlank c = false := by
      rwa [List.head?_reverse]
    rw [dropWhile_eq_self hhead', trimEnd, List.reverse_append,
      List.dropWhile_append_of_pos fun c hc => hafter c (List.mem_reverse.1 hc),
      dropWhile_eq_self hlast', List.reverse_reverse]

theorem trim_eq_iff {s cs : List Char} : trim cs = s ↔ Trims s cs :=
  ⟨fun h => h ▸ trims_trim cs, trim_eq_of_trims⟩

end OnePage.Text
