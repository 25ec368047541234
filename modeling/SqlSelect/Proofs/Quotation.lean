import SqlSelect.Proofs.Scan

/-! What stands in quotes in raw SQL.

SQLite has four ways to quote, one for string literals and three for identifiers. A text is cut into
characters outside of quotes and quoted runs (`Cut`); where a way to quote doubles its closing
character, that character written twice belongs to the run, and a run that is never closed goes on
to the end of the text. Comments are text like any other. Whatever ways to quote there are, as long
as no two of them open alike, every text is cut in exactly one way (`exists_cut`, `Cut.unique`).

The scan for markers looks at one character after the other and knows two of the four ways
(`Quotation.scanned`). The main statement, `markers_stand_outside_quotes`, says that it finds just
the `?` that these two leave outside of quotes, and so the `?` that stand outside of all of SQLite's
quotes wherever the two other ways are not used. -/
namespace SqlSelect

/-! ### Quoted runs -/

/-- A way to quote. Where it `doubles`, the closing character written twice stands for itself. -/
structure Quotation where
  opening : Char
  closing : Char
  doubles : Bool
deriving DecidableEq

namespace Quotation

/-- The quotes of string literals. -/
def literal : Quotation := ⟨'\'', '\'', true⟩

/-- The quotes of identifiers in standard SQL. -/
def identifier : Quotation := ⟨'"', '"', true⟩

/-- A second way to quote identifiers. -/
def graveAccents : Quotation := ⟨'\x60', '\x60', true⟩

/-- A third way, in which nothing can be doubled. -/
def brackets : Quotation := ⟨'[', ']', false⟩

/-- All ways to quote in SQLite. -/
def sqlite : List Quotation := [literal, identifier, graveAccents, brackets]

/-- The ways that the scan for markers knows. -/
def scanned : List Quotation := [literal, identifier]

/-- What is written behind a character of a content to double it, if it is to be doubled. -/
def doubling (k : Quotation) (c : Char) : List Char :=
  if k.doubles && c == k.closing then [c] else []

/-- How a content is written between the quotes. -/
def spelled (k : Quotation) : List Char → List Char
  | [] => []
  | c :: content => c :: (k.doubling c ++ k.spelled content)

/-- The content can be quoted: without doubling it must not hold the closing character. -/
def Holds (k : Quotation) (content : List Char) : Prop := k.doubles = true ∨ k.closing ∉ content

/-- A run of this kind that ends where `rest` begins is not continued by a doubled quote. -/
def EndsBefore (k : Quotation) (rest : List Char) : Prop :=
  k.doubles = true → rest.head? ≠ some k.closing

end Quotation

/-- A part of a raw text, as far as quotes are concerned. -/
inductive Stretch where
  /-- A character outside of quotes. -/
  | bare (c : Char)
  | quoted (k : Quotation) (content : List Char)
  /-- A quoted run to the end of the text. -/
  | unclosed (k : Quotation) (content : List Char)
deriving DecidableEq

namespace Stretch

def chars : Stretch → List Char
  | bare c => [c]
  | quoted k content => k.opening :: (k.spelled content ++ [k.closing])
  | unclosed k content => k.opening :: k.spelled content

/-- The way to quote that a run uses. -/
def quotation? : Stretch → Option Quotation
  | bare _ => none
  | quoted k _ | unclosed k _ => some k

end Stretch

/-- The text is cut into these stretches, where `kinds` are the ways to quote. -/
inductive Cut (kinds : List Quotation) : List Char → List Stretch → Prop where
  | nil : Cut kinds [] []
  | bare {c s ss} : (∀ k ∈ kinds, k.opening ≠ c) → Cut kinds s ss →
      Cut kinds (c :: s) (.bare c :: ss)
  | quoted {k content s ss} : k ∈ kinds → k.Holds content → k.EndsBefore s → Cut kinds s ss →
      Cut kinds (k.opening :: (k.spelled content ++ k.closing :: s)) (.quoted k content :: ss)
  | unclosed {k content} : k ∈ kinds → k.Holds content →
      Cut kinds (k.opening :: k.spelled content) [.unclosed k content]

/-- A `?` stands outside of quotes, behind this many bytes. -/
def MarkedAt (ss : List Stretch) (p : Nat) : Prop :=
  ∃ before after, ss = before ++ .bare '?' :: after ∧
    p = (String.ofList (before.flatMap Stretch.chars)).utf8ByteSize

/-! ### Every text is cut in one way -/

namespace Quotation
variable {k : Quotation}

theorem doubling_of_ne {c : Char} (h : c ≠ k.closing) : k.doubling c = [] := by
  simp [doubling, h]

theorem doubling_closing (doubles : k.doubles = true) : k.doubling k.closing = [k.closing] := by
  simp [doubling, doubles]

theorem Holds.tail {c : Char} {content : List Char} (h : k.Holds (c :: content)) :
    k.Holds content :=
  h.imp_right fun absent there => absent (List.mem_cons_of_mem c there)

theorem Holds.cons {c : Char} {content : List Char} (h : k.Holds content) (other : c ≠ k.closing) :
    k.Holds (c :: content) := by
  refine h.imp_right fun absent there => ?_
  rcases List.mem_cons.mp there with same | there
  · exact other same.symm
  · exact absent there

/-- What can follow a content: the end of the text, or the closing character and a rest that does
not double it. -/
def Follows (k : Quotation) (t : List Char) : Prop :=
  t = [] ∨ ∃ rest, t = k.closing :: rest ∧ k.EndsBefore rest

/-- Behind any quote a content can be read as far as the run goes. -/
theorem exists_content (k : Quotation) : ∀ s : List Char,
    ∃ content t, s = k.spelled content ++ t ∧ k.Holds content ∧ k.Follows t
  | [] => ⟨[], [], rfl, .inr List.not_mem_nil, .inl rfl⟩
  | c :: s => by
    by_cases closes : c = k.closing
    · by_cases ends : k.EndsBefore s
      · exact ⟨[], c :: s, rfl, .inr List.not_mem_nil, .inr ⟨s, by rw [closes], ends⟩⟩
      · -- the closing character is doubled, and the run goes on behind both
        obtain ⟨doubles, head⟩ : k.doubles = true ∧ s.head? = some k.closing := by
          simpa [EndsBefore] using ends
        obtain ⟨rest, rfl⟩ := List.head?_eq_some_iff.mp head
        obtain ⟨content, t, rfl, _, follows⟩ := exists_content k rest
        refine ⟨k.closing :: content, t, ?_, .inl doubles, follows⟩
        rw [spelled, doubling_closing doubles, closes]
        rfl
    · obtain ⟨content, t, rfl, holds, follows⟩ := exists_content k s
      refine ⟨c :: content, t, ?_, holds.cons closes, follows⟩
      rw [spelled, doubling_of_ne closes]
      rfl

/-- A character of a content is not taken for the end of the run. -/
theorem not_follows_of_holds {c : Char} {content : List Char} (h : k.Holds (c :: content))
    (s : List Char) : ¬ k.Follows (c :: (k.doubling c ++ s)) := by
  rintro (empty | ⟨rest, same, ends⟩)
  · cases empty
  · obtain ⟨rfl, rfl⟩ := List.cons.inj same
    rcases h with doubles | absent
    · rw [doubling_closing doubles] at ends
      exact ends doubles rfl
    · exact absent List.mem_cons_self

/-- Where a run ends can be told from the text. -/
theorem spelled_inj {content content' t t' : List Char} (h : k.Holds content)
    (h' : k.Holds content') (follows : k.Follows t) (follows' : k.Follows t')
    (same : k.spelled content ++ t = k.spelled content' ++ t') : content = content' ∧ t = t' := by
  induction content generalizing content' with
  | nil =>
    cases content' with
    | nil => exact ⟨rfl, same⟩
    | cons d content' =>
      rw [show t = d :: (k.doubling d ++ (k.spelled content' ++ t')) by simpa [spelled] using same]
        at follows
      exact absurd follows (not_follows_of_holds h' _)
  | cons c content ih =>
    cases content' with
    | nil =>
      rw [show t' = c :: (k.doubling c ++ (k.spelled content ++ t)) by
        simpa [spelled] using same.symm] at follows'
      exact absurd follows' (not_follows_of_holds h _)
    | cons d content' =>
      simp only [spelled, List.cons_append, List.append_assoc, List.cons.injEq] at same
      obtain ⟨rfl, rest⟩ := same
      obtain ⟨rfl, rfl⟩ := ih h.tail h'.tail (List.append_cancel_left rest)
      exact ⟨rfl, rfl⟩

end Quotation

section Cut
variable {kinds : List Quotation}

/-- No two ways to quote open alike. -/
def Quotation.Apart (kinds : List Quotation) : Prop :=
  ∀ k ∈ kinds, ∀ l ∈ kinds, k.opening = l.opening → k = l

theorem exists_cut (kinds : List Quotation) : ∀ s : List Char, ∃ ss, Cut kinds s ss
  | [] => ⟨[], .nil⟩
  | c :: s => by
    by_cases opens : ∃ k ∈ kinds, k.opening = c
    · obtain ⟨k, known, rfl⟩ := opens
      obtain ⟨content, t, rfl, holds, rfl | ⟨rest, rfl, ends⟩⟩ := k.exists_content s
      · refine ⟨[.unclosed k content], ?_⟩
        rw [List.append_nil]
        exact .unclosed known holds
      · obtain ⟨ss, cut⟩ := exists_cut kinds rest
        exact ⟨.quoted k content :: ss, .quoted known holds ends cut⟩
    · obtain ⟨ss, cut⟩ := exists_cut kinds s
      exact ⟨.bare c :: ss, .bare (fun k known same => opens ⟨k, known, same⟩) cut⟩
termination_by s => s.length

/-- What is cut off first is told by the text: a run goes as far as its content, and another
character stands alone. -/
theorem Cut.run_inv (apart : Quotation.Apart kinds) {k : Quotation} {content t s : List Char}
    {ss : List Stretch} (known : k ∈ kinds) (holds : k.Holds content) (follows : k.Follows t)
    (h : Cut kinds s ss) (same : s = k.opening :: (k.spelled content ++ t)) :
    t = [] ∧ ss = [.unclosed k content] ∨
      ∃ rest ss', t = k.closing :: rest ∧ ss = .quoted k content :: ss' ∧ Cut kinds rest ss' := by
  cases h with
  | nil => cases same
  | bare opens => exact absurd (List.cons.inj same).1.symm (opens _ known)
  | @quoted k' content' rest ss' known' holds' ends' cut =>
    obtain ⟨opening, same⟩ := List.cons.inj same
    obtain rfl := apart _ known' _ known opening
    obtain ⟨rfl, rfl⟩ := Quotation.spelled_inj holds' holds (.inr ⟨_, rfl, ends'⟩) follows same
    exact .inr ⟨rest, ss', rfl, rfl, cut⟩
  | @unclosed k' content' known' holds' =>
    obtain ⟨opening, same⟩ := List.cons.inj same
    obtain rfl := apart _ known' _ known opening
    rw [← List.append_nil (k'.spelled content')] at same
    obtain ⟨rfl, rfl⟩ := Quotation.spelled_inj holds' holds (.inl rfl) follows same
    exact .inl ⟨rfl, rfl⟩

theorem Cut.unique (apart : Quotation.Apart kinds) {s : List Char} {ss ss' : List Stretch}
    (h : Cut kinds s ss) (h' : Cut kinds s ss') : ss' = ss := by
  induction h generalizing ss' with
  | nil =>
    cases h'
    rfl
  | @bare c s ss opens _ ih =>
    generalize text : c :: s = s' at h'
    cases h' with
    | nil => cases text
    | bare _ rest =>
      obtain ⟨rfl, rfl⟩ := List.cons.inj text
      rw [ih rest]
    | quoted known => exact absurd (List.cons.inj text).1.symm (opens _ known)
    | unclosed known => exact absurd (List.cons.inj text).1.symm (opens _ known)
  | quoted known holds ends _ ih =>
    rcases h'.run_inv apart known holds (.inr ⟨_, rfl, ends⟩) rfl with
      ⟨closed, _⟩ | ⟨rest, ss', closing, rfl, cut⟩
    · cases closed
    · cases closing
      rw [ih cut]
  | @unclosed k content known holds =>
    rcases h'.run_inv apart known holds (.inl rfl)
      (congrArg (k.opening :: ·) (List.append_nil _).symm) with ⟨_, rfl⟩ | ⟨_, _, closing, _⟩
    · rfl
    · cases closing

/-- Stretches that keep to fewer ways to quote are those for these alone. -/
theorem Cut.of_used {fewer : List Quotation} (among : ∀ k ∈ fewer, k ∈ kinds) {s : List Char}
    {ss : List Stretch} (h : Cut kinds s ss)
    (used : ∀ stretch ∈ ss, ∀ k, stretch.quotation? = some k → k ∈ fewer) :
    Cut fewer s ss := by
  induction h with
  | nil => exact .nil
  | bare opens _ ih =>
    obtain ⟨_, rest⟩ := List.forall_mem_cons.mp used
    exact .bare (fun k known => opens k (among k known)) (ih rest)
  | quoted _ holds ends _ ih =>
    obtain ⟨first, rest⟩ := List.forall_mem_cons.mp used
    exact .quoted (first _ rfl) holds ends (ih rest)
  | unclosed _ holds => exact .unclosed (used _ List.mem_cons_self _ rfl) holds

end Cut

/-! ### The scan -/

theorem not_markedAt_nil {p : Nat} : ¬ MarkedAt [] p := by
  simp [MarkedAt]

/-- Where a marker stands among stretches, it is the first of them or stands behind the first. -/
theorem markedAt_cons {stretch : Stretch} {ss : List Stretch} {p : Nat} :
    MarkedAt (stretch :: ss) p ↔ stretch = .bare '?' ∧ p = 0 ∨
      ∃ q, MarkedAt ss q ∧ p = (String.ofList stretch.chars).utf8ByteSize + q := by
  constructor
  · rintro ⟨before, after, split, rfl⟩
    cases before with
    | nil =>
      cases split
      exact .inl ⟨rfl, rfl⟩
    | cons first before =>
      cases split
      refine .inr ⟨_, ⟨before, after, rfl, rfl⟩, ?_⟩
      simp
  · rintro (⟨rfl, rfl⟩ | ⟨q, ⟨before, after, rfl, rfl⟩, rfl⟩)
    · exact ⟨[], ss, rfl, rfl⟩
    · exact ⟨stretch :: before, after, rfl, by simp⟩

namespace Marker

theorem offsetsFrom_append (quote : Quote) (start : Nat) (s t : List Char) :
    offsetsFrom quote start (s ++ t) = offsetsFrom quote start s ++
      offsetsFrom (after quote s) (start + (String.ofList s).utf8ByteSize) t := by
  induction s generalizing quote start with
  | nil => rfl
  | cons c s ih =>
    have stepped : after quote (c :: s) = after (next quote c) s := rfl
    rw [Text.utf8ByteSize_ofList_cons, ← Nat.add_assoc, stepped,
      List.cons_append, offsetsFrom, offsetsFrom]
    cases h : isMarker quote c with
    | false => simp [ih]
    | true => simp [ih, next_of_isMarker h]

theorem offsetsFrom_ascending (quote : Quote) (start : Nat) (s : List Char) :
    (offsetsFrom quote start s).Pairwise (· < ·) ∧ ∀ p ∈ offsetsFrom quote start s, start ≤ p := by
  induction s generalizing quote start with
  | nil => exact ⟨.nil, by simp [offsetsFrom]⟩
  | cons c s ih =>
    have size := c.utf8Size_pos
    rw [offsetsFrom]
    cases h : isMarker quote c with
    | false =>
      obtain ⟨ascending, bound⟩ := ih (next quote c) (start + c.utf8Size)
      exact ⟨ascending, fun p hp => Nat.le_of_add_right_le (bound p hp)⟩
    | true =>
      obtain ⟨ascending, bound⟩ := ih quote (start + c.utf8Size)
      refine ⟨List.pairwise_cons.mpr ⟨fun p hp => ?_, ascending⟩, fun p hp => ?_⟩
      · have := bound p hp
        omega
      · rcases List.mem_cons.mp hp with rfl | hp
        · exact Nat.le_refl _
        · exact Nat.le_of_add_right_le (bound p hp)

/-- What opens a quote that the scan knows also closes it, and doubles inside. -/
theorem quote_of_scanned {k : Quotation} (known : k ∈ Quotation.scanned) :
    k.opening = k.closing ∧ k.doubles = true ∧ next none k.closing = some k.closing ∧
      isMarker none k.closing = false := by
  have each : ∀ k ∈ Quotation.scanned, k.opening = k.closing ∧ k.doubles = true ∧
      next none k.closing = some k.closing ∧ isMarker none k.closing = false := by decide
  exact each k known

/-- Inside a run the scan finds nothing, and a doubled quote leads it out and in again. -/
theorem scan_spelled {k : Quotation} (known : k ∈ Quotation.scanned) (content : List Char)
    (start : Nat) : offsetsFrom (some k.closing) start (k.spelled content) = [] ∧
      after (some k.closing) (k.spelled content) = some k.closing := by
  obtain ⟨_, doubles, opens, unmarked⟩ := quote_of_scanned known
  induction content generalizing start with
  | nil => exact ⟨rfl, rfl⟩
  | cons c content ih =>
    by_cases closes : c = k.closing
    · have out : next (some k.closing) k.closing = none := if_pos rfl
      have inside : isMarker (some k.closing) k.closing = false := rfl
      rw [closes, Quotation.spelled, Quotation.doubling_closing doubles]
      simp only [List.singleton_append, offsetsFrom, after, List.foldl_cons, out, opens, unmarked,
        inside, Bool.false_eq_true, if_false]
      exact ih _
    · have stays : next (some k.closing) c = some k.closing := if_neg closes
      have inside : isMarker (some k.closing) c = false := rfl
      rw [Quotation.spelled, Quotation.doubling_of_ne closes]
      simp only [List.nil_append, offsetsFrom, after, List.foldl_cons, stays, inside,
        Bool.false_eq_true, if_false]
      exact ih _

/-- A run keeps the scan inside from its opening quote to where its content ends. -/
theorem scan_run {k : Quotation} (known : k ∈ Quotation.scanned) (content : List Char)
    (start : Nat) : offsetsFrom none start (k.opening :: k.spelled content) = [] ∧
      after none (k.opening :: k.spelled content) = some k.closing := by
  obtain ⟨same, _, opens, unmarked⟩ := quote_of_scanned known
  rw [same]
  simp only [offsetsFrom, after, List.foldl_cons, opens, unmarked, Bool.false_eq_true, if_false]
  exact scan_spelled known content _

/-- A character outside of quotes that opens none is a marker just if it is a `?`. -/
theorem scan_bare {c : Char} (opens : ∀ k ∈ Quotation.scanned, k.opening ≠ c) (start : Nat) :
    offsetsFrom none start [c] = (if c = '?' then [start] else []) ∧ after none [c] = none := by
  have single : c ≠ '\'' := (opens Quotation.literal List.mem_cons_self).symm
  have double : c ≠ '"' := (opens Quotation.identifier (by decide)).symm
  have calm : next none c = none := by simp [next, isQuote, single, double]
  refine ⟨?_, calm⟩
  by_cases mark : c = '?'
  · subst mark
    rfl
  · simp [offsetsFrom, isMarker, mark]

/-- In this text the scan finds what stands outside of quotes among these stretches. -/
structure Marks (s : List Char) (ss : List Stretch) : Prop where
  mem : ∀ start p, p ∈ offsetsFrom none start s ↔ ∃ q, MarkedAt ss q ∧ p = start + q
  length : ∀ start, (offsetsFrom none start s).length = ss.count (.bare '?')

/-- A stretch in front that the scan gets through. -/
theorem Marks.cons {stretch : Stretch} {s : List Char} {ss : List Stretch}
    (found : ∀ start,
      offsetsFrom none start stretch.chars = if stretch = .bare '?' then [start] else [])
    (out : after none stretch.chars = none) (h : Marks s ss) :
    Marks (stretch.chars ++ s) (stretch :: ss) := by
  constructor
  · intro start p
    have first : p ∈ (if stretch = .bare '?' then [start] else []) ↔
        stretch = .bare '?' ∧ p = start := by
      by_cases mark : stretch = .bare '?' <;> simp [mark]
    rw [offsetsFrom_append, out, found, List.mem_append, first, h.mem]
    constructor
    · rintro (⟨mark, rfl⟩ | ⟨q, there, rfl⟩)
      · exact ⟨0, markedAt_cons.mpr (.inl ⟨mark, rfl⟩), rfl⟩
      · exact ⟨_, markedAt_cons.mpr (.inr ⟨q, there, rfl⟩), Nat.add_assoc ..⟩
    · rintro ⟨_, there, rfl⟩
      rcases markedAt_cons.mp there with ⟨mark, rfl⟩ | ⟨q, later, rfl⟩
      · exact .inl ⟨mark, rfl⟩
      · exact .inr ⟨q, later, (Nat.add_assoc ..).symm⟩
  · intro start
    rw [offsetsFrom_append, out, found, List.length_append, h.length, List.count_cons]
    by_cases mark : stretch = .bare '?' <;> simp [mark, Nat.add_comm]

/-- The scan finds the `?` outside of the quotes it knows. -/
theorem marks_of_cut {s : List Char} {ss : List Stretch} (h : Cut Quotation.scanned s ss) :
    Marks s ss := by
  induction h with
  | nil => exact ⟨fun start p => by simp [offsetsFrom, not_markedAt_nil], fun _ => rfl⟩
  | @bare c s ss opens _ ih =>
    have found : ∀ start, offsetsFrom none start (Stretch.chars (.bare c)) =
        if Stretch.bare c = .bare '?' then [start] else [] := by
      intro start
      simp only [Stretch.bare.injEq]
      exact (scan_bare opens start).1
    exact .cons found (scan_bare opens 0).2 ih
  | @quoted k content s ss known _ _ _ ih =>
    have through : ∀ start, offsetsFrom none start (Stretch.quoted k content).chars = [] := by
      intro start
      obtain ⟨nothing, inside⟩ := scan_run known content start
      rw [Stretch.chars, ← List.cons_append, offsetsFrom_append, nothing, inside]
      rfl
    have out : after none (Stretch.quoted k content).chars = none := by
      rw [Stretch.chars, ← List.cons_append, after_append, (scan_run known content 0).2]
      exact if_pos rfl
    have other : Stretch.quoted k content ≠ .bare '?' := by simp
    have all := Marks.cons (fun start => by rw [through, if_neg other]) out ih
    simpa [Stretch.chars] using all
  | @unclosed k content known _ =>
    refine ⟨fun start p => ?_, fun start => ?_⟩
    · rw [(scan_run known content start).1]
      simp [markedAt_cons, not_markedAt_nil]
    · rw [(scan_run known content start).1]
      rfl

end Marker

/-! ### Markers of a text -/

/-- The scan of the text finds, in ascending order, the places of the `?` outside of quotes among
these stretches, and a value for each of them is what makes the text a fragment. -/
structure Marker.Finds (sql : String) (ss : List Stretch) : Prop where
  ascending : (Marker.offsets sql).Pairwise (· < ·)
  mem : ∀ p, p ∈ Marker.offsets sql ↔ MarkedAt ss p
  accepted : ∀ values, (∃ e : Expr Query, Expr.ofRaw sql values = .ok e) ↔
    values.length = ss.count (.bare '?')

theorem Marker.Marks.finds {sql : String} {ss : List Stretch} (h : Marks sql.toList ss) :
    Finds sql ss := by
  refine ⟨(offsetsFrom_ascending none 0 sql.toList).1, fun p => ?_, fun values => ?_⟩
  · rw [offsets, h.mem]
    simp
  · rw [← h.length 0, Expr.ofRaw]
    show _ ↔ values.length = count sql
    by_cases enough : count sql = values.length
    · simp [enough]
    · have other : values.length ≠ count sql := fun same => enough same.symm
      simp [enough, other]

/-- Every text is cut in one way by the quotes that the scan knows, and in one way by all of
SQLite's. The scan finds the `?` that stand outside of the quotes it knows, and where the text uses
no others, these are the `?` outside of all quotes. -/
theorem markers_stand_outside_quotes (sql : String) :
    ∃ ss full, (∀ ss', Cut Quotation.scanned sql.toList ss' ↔ ss' = ss) ∧
      (∀ full', Cut Quotation.sqlite sql.toList full' ↔ full' = full) ∧
      Marker.Finds sql ss ∧
      ((∀ stretch ∈ full, ∀ k, stretch.quotation? = some k → k ∈ Quotation.scanned) →
        Marker.Finds sql full) := by
  have among : ∀ k ∈ Quotation.scanned, k ∈ Quotation.sqlite := by decide
  have apart : Quotation.Apart Quotation.sqlite := by unfold Quotation.Apart; decide
  obtain ⟨ss, cut⟩ := exists_cut Quotation.scanned sql.toList
  obtain ⟨full, cutFull⟩ := exists_cut Quotation.sqlite sql.toList
  have one : ∀ {kinds ss}, Quotation.Apart kinds → Cut kinds sql.toList ss →
      ∀ ss', Cut kinds sql.toList ss' ↔ ss' = ss :=
    fun apart cut ss' => ⟨cut.unique apart, fun same => same ▸ cut⟩
  refine ⟨ss, full, one (fun k hk l hl => apart k (among k hk) l (among l hl)) cut,
    one apart cutFull, (Marker.marks_of_cut cut).finds, fun used => ?_⟩
  exact (Marker.marks_of_cut (cutFull.of_used among used)).finds

/-- A marker behind a literal and an identifier that each hold a `?` and the quote of the other. -/
example : Marker.offsets "'it''s \"?' || \"'?\" || ?" = [22] := by decide

/-- Not every `?` that the scan finds stands outside of quotes. -/
theorem not_every_quote_scanned :
    ¬ ∀ sql full, Cut Quotation.sqlite sql.toList full →
      ∀ p, p ∈ Marker.offsets sql ↔ MarkedAt full p := by
  intro outside
  have known : Quotation.graveAccents ∈ Quotation.sqlite := by decide
  have cut : Cut Quotation.sqlite "`ok?`".toList
      [.quoted Quotation.graveAccents ['o', 'k', '?']] := by
    have ends : Quotation.graveAccents.EndsBefore [] := fun _ => by simp
    exact @Cut.quoted _ Quotation.graveAccents ['o', 'k', '?'] [] [] known (.inl rfl) ends .nil
  have found : 3 ∈ Marker.offsets "`ok?`" := by decide
  obtain ⟨before, after, split, _⟩ := (outside _ _ cut 3).mp found
  rcases List.cons_eq_append_iff.mp split with ⟨_, first⟩ | ⟨rest, _, nothing⟩
  · cases first
  · simp at nothing

end SqlSelect
