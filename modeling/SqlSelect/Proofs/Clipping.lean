import SqlSelect.Execution.Hook

/-! Cuts between characters.

The walk back from a budget ends at the last boundary that fits (`boundaryBelow_le`,
`le_boundaryBelow`, by induction on the budget), and since a character has at most four bytes, one
of any four offsets in a row is a boundary (`exists_boundary_near`, by induction on the characters).
The text before a boundary is a prefix of whole characters, so what is kept is the longest one
within the budget. The main statement, `cuts_keep_whole_characters`, says so of a clipped text and
of the two places where texts are shortened, the message of a failure and the SQL of a log event. -/
namespace SqlSelect.Text

/-! ### The boundary -/

/-- The walk ends where a character starts or the text ends. -/
theorem boundaryBelow_of_valid {s : String} {offset : Nat}
    (valid : String.Pos.Raw.IsValid s ⟨offset + 1⟩) :
    (boundaryBelow s (offset + 1)).offset.byteIdx = offset + 1 := by
  rw [boundaryBelow, dif_pos valid, String.offset_pos]

/-- The walk goes on inside a character and behind the end. -/
theorem boundaryBelow_of_not_valid {s : String} {offset : Nat}
    (valid : ¬String.Pos.Raw.IsValid s ⟨offset + 1⟩) :
    boundaryBelow s (offset + 1) = boundaryBelow s offset :=
  dif_neg valid

theorem boundaryBelow_le (s : String) (budget : Nat) :
    (boundaryBelow s budget).offset.byteIdx ≤ budget := by
  induction budget with
  | zero => exact Nat.le_of_eq (congrArg String.Pos.Raw.byteIdx String.offset_startPos)
  | succ offset ih =>
    by_cases valid : String.Pos.Raw.IsValid s ⟨offset + 1⟩
    · exact Nat.le_of_eq (boundaryBelow_of_valid valid)
    · rw [boundaryBelow_of_not_valid valid]
      exact Nat.le_succ_of_le ih

/-- No boundary within the budget lies behind the one that is found. -/
theorem le_boundaryBelow {s : String} (p : s.Pos) {budget : Nat} (fits : p.offset.byteIdx ≤ budget) :
    p.offset.byteIdx ≤ (boundaryBelow s budget).offset.byteIdx := by
  induction budget with
  | zero => exact Nat.le_trans fits (Nat.zero_le _)
  | succ offset ih =>
    by_cases valid : String.Pos.Raw.IsValid s ⟨offset + 1⟩
    · rw [boundaryBelow_of_valid valid]
      exact fits
    · rw [boundaryBelow_of_not_valid valid]
      have before : p.offset.byteIdx ≠ offset + 1 := fun here => valid (here ▸ p.isValid)
      exact ih (by omega)

/-- Some character starts or the text ends less than four bytes before an offset. -/
theorem exists_take_near (cs : List Char) (offset : Nat)
    (inside : offset ≤ (String.ofList cs).utf8ByteSize) :
    ∃ i, (String.ofList (cs.take i)).utf8ByteSize ≤ offset ∧
      offset ≤ (String.ofList (cs.take i)).utf8ByteSize + 3 := by
  induction cs generalizing offset with
  | nil => exact ⟨0, Nat.zero_le _, Nat.le_trans inside (Nat.le_add_right ..)⟩
  | cons c cs ih =>
    have most := c.utf8Size_le_four
    by_cases first : offset < c.utf8Size
    · exact ⟨0, Nat.zero_le _, by simp; omega⟩
    · rw [utf8ByteSize_ofList_cons] at inside
      obtain ⟨i, before, near⟩ := ih (offset - c.utf8Size) (by omega)
      refine ⟨i + 1, ?_, ?_⟩ <;> rw [List.take_succ_cons, utf8ByteSize_ofList_cons] <;> omega

theorem exists_boundary_near {s : String} {offset : Nat} (inside : offset ≤ s.utf8ByteSize) :
    ∃ p : s.Pos, p.offset.byteIdx ≤ offset ∧ offset ≤ p.offset.byteIdx + 3 := by
  rw [← s.ofList_toList] at inside
  obtain ⟨i, before, near⟩ := exists_take_near s.toList offset inside
  have valid : String.Pos.Raw.IsValid s ⟨(String.ofList (s.toList.take i)).utf8ByteSize⟩ :=
    String.Pos.Raw.isValid_iff_exists_take_toList.mpr ⟨i, rfl⟩
  refine ⟨s.pos _ valid, ?_, ?_⟩ <;> rwa [String.offset_pos]

/-! ### Prefixes of whole characters -/

/-- The text is the longest start of another that is made of whole characters and has at most this
many bytes. -/
structure LongestStart (budget : Nat) (s t : String) : Prop where
  start : ∃ rest, s = t ++ rest
  fits : t.utf8ByteSize ≤ budget
  longest : ∀ p rest, s = p ++ rest → p.utf8ByteSize ≤ budget → ∃ more, t = p ++ more

/-- Of two starts of a text, one with at least as many bytes begins with the other. -/
theorem exists_append_of_size_le {s p t rest rest' : String} (hp : s = p ++ rest)
    (ht : s = t ++ rest') (size : p.utf8ByteSize ≤ t.utf8ByteSize) : ∃ more, t = p ++ more := by
  have same : p.toList ++ rest.toList = t.toList ++ rest'.toList := by
    rw [← String.toList_append, ← String.toList_append, ← hp, ← ht]
  rcases List.append_eq_append_iff.mp same with ⟨more, longer, -⟩ | ⟨more, shorter, -⟩
  · exact ⟨String.ofList more, by rw [← String.toList_inj]; simp [longer]⟩
  · have longer : p = t ++ String.ofList more := by rw [← String.toList_inj]; simp [shorter]
    rw [longer, String.utf8ByteSize_append] at size
    have none : String.ofList more = "" := String.utf8ByteSize_eq_zero_iff.mp (by omega)
    exact ⟨"", by rw [longer, none, String.append_empty, String.append_empty]⟩

/-! ### Clipped and shortened texts -/

section Clip
variable {budget : Nat} {s : String}

theorem clip_of_le (fits : s.utf8ByteSize ≤ budget) : clip budget s = s := if_pos fits

/-- A long text is cut at the boundary. -/
theorem clip_of_lt (long : budget < s.utf8ByteSize) :
    (clip budget s).utf8ByteSize = (boundaryBelow s budget).offset.byteIdx ∧
      ∃ rest, s = clip budget s ++ rest := by
  have kept : clip budget s = (s.sliceTo (boundaryBelow s budget)).copy := if_neg (by omega)
  rw [kept, String.Slice.utf8ByteSize_copy, String.utf8ByteSize_sliceTo]
  exact ⟨rfl, _, (boundaryBelow s budget).splits.eq_append⟩

theorem longestStart_clip (budget : Nat) (s : String) : LongestStart budget s (clip budget s) := by
  by_cases fits : s.utf8ByteSize ≤ budget
  · rw [clip_of_le fits]
    exact ⟨⟨"", String.append_empty.symm⟩, fits, fun p rest whole _ => ⟨rest, whole⟩⟩
  · obtain ⟨size, rest, whole⟩ := clip_of_lt (Nat.not_le.mp fits)
    refine ⟨⟨rest, whole⟩, size ▸ boundaryBelow_le s budget, fun p rest' start small => ?_⟩
    -- Where another start ends is a boundary too, so it is not behind the one that was found.
    have valid : String.Pos.Raw.IsValid s p.rawEndPos :=
      String.Pos.Raw.isValid_iff_exists_append.mpr ⟨p, rest', start, rfl⟩
    have below : p.utf8ByteSize ≤ (boundaryBelow s budget).offset.byteIdx := by
      simpa using le_boundaryBelow (s.pos _ valid) (by simpa using small)
    exact exists_append_of_size_le start whole (size ▸ below)

/-- A cut leaves at most three bytes of the budget unused. -/
theorem clip_near (long : budget < s.utf8ByteSize) : budget ≤ (clip budget s).utf8ByteSize + 3 := by
  obtain ⟨p, before, near⟩ := exists_boundary_near (Nat.le_of_lt long)
  have below := le_boundaryBelow p before
  rw [(clip_of_lt long).1]
  omega

theorem clip_eq_iff : clip budget s = s ↔ s.utf8ByteSize ≤ budget :=
  ⟨fun same => same ▸ (longestStart_clip budget s).fits, clip_of_le⟩

end Clip

/-- The text is another as it is if that has at most this many bytes, and else its longest start
with three dots behind it. -/
def Shortened (budget : Nat) (s t : String) : Prop :=
  s.utf8ByteSize ≤ budget ∧ t = s ∨
    budget < s.utf8ByteSize ∧ ∃ start, LongestStart budget s start ∧ t = start ++ "..."

theorem shortened_ellipsized (budget : Nat) (s : String) :
    Shortened budget s (ellipsized budget s) := by
  by_cases fits : s.utf8ByteSize ≤ budget
  · exact .inl ⟨fits, if_pos fits⟩
  · exact .inr ⟨Nat.not_le.mp fits, clip budget s, longestStart_clip budget s, if_neg fits⟩

theorem Shortened.size_le {budget : Nat} {s t : String} (h : Shortened budget s t) :
    t.utf8ByteSize ≤ budget + 3 := by
  rcases h with ⟨fits, rfl⟩ | ⟨_, start, longest, rfl⟩
  · exact Nat.le_add_right_of_le fits
  · rw [String.utf8ByteSize_append]
    exact Nat.add_le_add_right longest.fits 3

/-- A clipped text is the longest start of whole characters within the budget, all of the text just
if that fits and otherwise at most three bytes short of it. The message of a failure is shortened
to 512 bytes, and so is the SQL of a log event, to the bytes the hook allows. -/
theorem cuts_keep_whole_characters (s : String) (budget : Nat) :
    (LongestStart budget s (clip budget s) ∧ (clip budget s = s ↔ s.utf8ByteSize ≤ budget) ∧
      (budget < s.utf8ByteSize → budget ≤ (clip budget s).utf8ByteSize + 3)) ∧
    (∃ message, Execution.Outcome.ofError s = .error message ∧ Shortened 512 s message ∧
      message.utf8ByteSize ≤ 515) ∧
    ∀ severity, Shortened budget s (Execution.LogHook.shortened ⟨severity, some budget⟩ s) := by
  have message := shortened_ellipsized 512 s
  exact ⟨⟨longestStart_clip budget s, clip_eq_iff, clip_near⟩,
    ⟨_, rfl, message, message.size_le⟩, fun _ => shortened_ellipsized budget s⟩

/-- Four bytes end inside the second character, and three of them stay unused. -/
theorem cuts_keep_whole_characters_inside :
    4 < "a😀b".utf8ByteSize ∧ clip 4 "a😀b" = "a" ∧ 4 ≤ (clip 4 "a😀b").utf8ByteSize + 3 :=
  ⟨by decide, by decide, (cuts_keep_whole_characters "a😀b" 4).1.2.2 (by decide)⟩

end SqlSelect.Text
