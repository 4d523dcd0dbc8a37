import OnePage.Proofs.Cutting

/-! # The grammar of a request line

A first line is three words with spaces and tabs around and between them, and anything after
another space or tab (`Request.Layout`). It can be laid out in one way only, and the parser finds it
or tells how many words there are instead. -/

namespace OnePage

/-- How many words a line has that lacks one. -/
def RequestError.words : RequestError → Nat
  | missingMethod => 0
  | missingUri => 1
  | missingVersion => 2

namespace Request
open Text

/-- The parts of a first line. -/
structure Layout where
  lead : List UInt8
  line : RequestLine
  gap : List UInt8
  gap' : List UInt8
  tail : List UInt8

namespace Layout

def text (p : Layout) : List UInt8 :=
  p.lead ++ (p.line.method ++ (p.gap ++ (p.line.uri ++ (p.gap' ++ (p.line.version ++ p.tail)))))

/-- Spaces and tabs before and between the words and none in them. -/
structure Sound (p : Layout) : Prop where
  lead : ∀ b ∈ p.lead, isSeparator b
  gaps : ∀ gap ∈ [p.gap, p.gap'], gap ≠ [] ∧ ∀ b ∈ gap, isSeparator b
  words : ∀ word ∈ [p.line.method, p.line.uri, p.line.version],
    word ≠ [] ∧ ∀ b ∈ word, isSeparator b = false
  tail : ∀ b ∈ p.tail.head?, isSeparator b

variable {p q : Layout}

theorem head?_gap {gap : List UInt8} (h : gap ≠ [] ∧ ∀ b ∈ gap, isSeparator b)
    (rest : List UInt8) : ∀ b ∈ (gap ++ rest).head?, isSeparator b := by
  intro b hb
  rw [List.head?_append_of_ne_nil _ h.1] at hb
  exact h.2 b (List.mem_of_mem_head? hb)

namespace Sound

theorem method (H : p.Sound) : FirstWord isSeparator p.text p.lead p.line.method
    (p.gap ++ (p.line.uri ++ (p.gap' ++ (p.line.version ++ p.tail)))) :=
  have hword := H.words p.line.method (by simp)
  ⟨rfl, H.lead, hword.1, hword.2, head?_gap (H.gaps p.gap (by simp)) _⟩

theorem uri (H : p.Sound) : FirstWord isSeparator
    (p.gap ++ (p.line.uri ++ (p.gap' ++ (p.line.version ++ p.tail)))) p.gap p.line.uri
    (p.gap' ++ (p.line.version ++ p.tail)) :=
  have hword := H.words p.line.uri (by simp)
  ⟨rfl, (H.gaps p.gap (by simp)).2, hword.1, hword.2, head?_gap (H.gaps p.gap' (by simp)) _⟩

theorem version (H : p.Sound) : FirstWord isSeparator
    (p.gap' ++ (p.line.version ++ p.tail)) p.gap' p.line.version p.tail :=
  have hword := H.words p.line.version (by simp)
  ⟨rfl, (H.gaps p.gap' (by simp)).2, hword.1, hword.2, H.tail⟩

theorem tokens_text (H : p.Sound) : tokens isSeparator p.text =
    p.line.method :: p.line.uri :: p.line.version :: tokens isSeparator p.tail := by
  rw [H.method.tokens_eq, H.uri.tokens_eq, H.version.tokens_eq]

/-- A line is laid out in one way. -/
theorem unique (H : p.Sound) (H' : q.Sound) (h : p.text = q.text) : p = q := by
  obtain ⟨lead, ⟨method, uri, version⟩, gap, gap', tail⟩ := p
  obtain ⟨lead', ⟨method', uri', version'⟩, gap₂, gap₂', tail'⟩ := q
  obtain ⟨hlead, hmethod, hrest⟩ := H.method.unique (h ▸ H'.method)
  obtain ⟨hgap, huri, hrest⟩ := H.uri.unique (hrest ▸ H'.uri)
  obtain ⟨hgap', hversion, htail⟩ := H.version.unique (hrest ▸ H'.version)
  cases hlead; cases hmethod; cases hgap; cases huri; cases hgap'; cases hversion; cases htail
  rfl

end Sound

/-- Three words in a row lay out a line. -/
theorem exists_sound {text method uri version : List UInt8} {more : List (List UInt8)}
    (h : tokens isSeparator text = method :: uri :: version :: more) :
    ∃ p : Layout, p.Sound ∧ p.text = text ∧ p.line = ⟨method, uri, version⟩ := by
  obtain ⟨lead, rest, Hm, h⟩ := exists_firstWord_of_tokens h
  obtain ⟨gap, rest', Hu, h⟩ := exists_firstWord_of_tokens h
  obtain ⟨gap', tail, Hv, -⟩ := exists_firstWord_of_tokens h
  -- where a word ends something separates, so no gap is empty
  have hne {line gap word after : List UInt8} (hline : ∀ b ∈ line.head?, isSeparator b)
      (H : FirstWord isSeparator line gap word after) : gap ≠ [] := by
    rintro rfl
    obtain ⟨b, bs, hword⟩ := List.exists_cons_of_ne_nil H.ne_nil
    have hsep := hline b (by rw [H.append, hword]; rfl)
    exact Bool.false_ne_true ((H.word b (by simp [hword])).symm.trans hsep)
  refine ⟨⟨lead, ⟨method, uri, version⟩, gap, gap', tail⟩, ⟨Hm.gap, ?_, ?_, Hv.rest⟩, ?_, rfl⟩
  · exact List.forall_mem_cons.2 ⟨⟨hne Hm.rest Hu, Hu.gap⟩,
      List.forall_mem_singleton.2 ⟨hne Hu.rest Hv, Hv.gap⟩⟩
  · exact List.forall_mem_cons.2 ⟨⟨Hm.ne_nil, Hm.word⟩, List.forall_mem_cons.2
      ⟨⟨Hu.ne_nil, Hu.word⟩, List.forall_mem_singleton.2 ⟨Hv.ne_nil, Hv.word⟩⟩⟩
  · rw [Hm.append, Hu.append, Hv.append]
    rfl

end Layout

variable {r : List UInt8} {line : RequestLine}

theorem parse_eq_error_iff {e : RequestError} : parse r = .error e ↔
    (tokens isSeparator (firstLine r)).length = e.words := by
  unfold parse
  split <;> cases e <;> simp_all [RequestError.words]

theorem parse_eq_ok_iff : parse r = .ok line ↔
    ∃ p : Layout, p.Sound ∧ p.text = firstLine r ∧ p.line = line := by
  constructor
  · intro h
    unfold parse at h
    split at h <;> cases h
    rename_i htokens
    exact Layout.exists_sound htokens
  · rintro ⟨p, hp, htext, rfl⟩
    rw [parse, ← htext, hp.tokens_text]

theorem endsLine_of_mem_firstLine {b : UInt8} (h : b ∈ firstLine r) : endsLine b = false := by
  simpa using (cut (fun b => !endsLine b) r).front b h

theorem firstLine_append_ending {text : List UInt8} (h : ∀ b ∈ text, endsLine b = false)
    {ending : UInt8} (hending : endsLine ending) (rest : List UInt8) :
    firstLine (text ++ ending :: rest) = text :=
  have H : Cut (fun b => !endsLine b) (text ++ ending :: rest) text (ending :: rest) :=
    ⟨rfl, fun b hb => by simp [h b hb], by simp [hending]⟩
  H.takeWhile_eq

/-- A line with one space between its words and nothing else. -/
def Layout.plain (line : RequestLine) : Layout := ⟨[], line, [0x20], [0x20], []⟩

theorem Layout.Sound.plain {p : Layout} (H : p.Sound) : (Layout.plain p.line).Sound where
  lead := by simp [Layout.plain]
  gaps := by simp [Layout.plain, isSeparator]
  words := H.words
  tail := by simp [Layout.plain]

theorem parse_plain (h : parse r = .ok line) {ending : UInt8} (hending : endsLine ending)
    (rest : List UInt8) : parse ((Layout.plain line).text ++ ending :: rest) = .ok line := by
  obtain ⟨p, hp, htext, rfl⟩ := parse_eq_ok_iff.1 h
  refine parse_eq_ok_iff.2
    ⟨_, hp.plain, (firstLine_append_ending (fun b hb => ?_) hending rest).symm, rfl⟩
  have hmem : b = 0x20 ∨ b ∈ p.text := by
    simp only [Layout.text, Layout.plain, List.nil_append, List.append_nil, List.mem_append,
      List.mem_singleton] at hb ⊢
    tauto
  rcases hmem with rfl | hmem
  · rfl
  · exact endsLine_of_mem_firstLine (htext ▸ hmem)

/-- **The grammar of a request line.** Only the longest beginning without a line ending counts. It
is understood exactly if it can be laid out, which can be done in one way only, and then its words
are the three parts. If it is not, the error tells how many words there are instead of three: a word
is a run of bytes that are neither space nor tab and that cannot be made longer. The three parts
have no space, tab or line ending in them, and are read again from a line with one space between
them, whatever follows it. -/
theorem request_line_grammar (r : List UInt8) :
    (∀ first, firstLine r = first ↔ first <+: r ∧ (∀ b ∈ first, endsLine b = false) ∧
      ∀ other, other <+: r → (∀ b ∈ other, endsLine b = false) → other.length ≤ first.length) ∧
    (∀ line, parse r = .ok line ↔
      ∃ p : Layout, p.Sound ∧ p.text = firstLine r ∧ p.line = line) ∧
    (∀ p q : Layout, p.Sound → q.Sound → p.text = firstLine r → q.text = firstLine r → p = q) ∧
    (∀ e, parse r = .error e ↔
      (maximalRuns isSeparator (firstLine r)).encard = e.words) ∧
    (∀ s, firstLine s = firstLine r → parse s = parse r) ∧
    ∀ line, parse r = .ok line →
      (∀ word ∈ [line.method, line.uri, line.version], ∀ b ∈ word,
        isSeparator b = false ∧ endsLine b = false) ∧
      ∀ ending rest, endsLine ending →
        parse (line.method ++ 0x20 :: (line.uri ++ 0x20 :: (line.version ++ ending :: rest))) =
          .ok line := by
  refine ⟨fun first => ?_, fun line => parse_eq_ok_iff,
    fun p q hp hq htext htext' => hp.unique hq (htext.trans htext'.symm), fun e => ?_,
    fun s hs => parse_eq_of_firstLine_eq hs, fun line hline => ⟨?_, ?_⟩⟩
  · have h : firstLine r = first ↔ _ := takeWhile_eq_iff
    simpa only [Bool.not_eq_true'] using h
  · rw [parse_eq_error_iff, encard_maximalRuns]
    exact Nat.cast_inj.symm
  · obtain ⟨p, hp, htext, rfl⟩ := parse_eq_ok_iff.1 hline
    intro word hword b hb
    refine ⟨(hp.words word hword).2 b hb, endsLine_of_mem_firstLine (r := r) ?_⟩
    rw [← htext]
    simp only [List.mem_cons, List.not_mem_nil, or_false] at hword
    rcases hword with rfl | rfl | rfl <;> simp [Layout.text, hb]
  · intro ending rest hending
    simpa [Layout.text, Layout.plain] using parse_plain hline hending rest

/-- What is read of a line with tabs, and with more on it than three words. -/
example : parse (Text.bytes " GET  /a\tx y\r\nHost: b\n") =
    .ok ⟨Text.bytes "GET", Text.bytes "/a", Text.bytes "x"⟩ := by
  decide +kernel

end Request

end OnePage
