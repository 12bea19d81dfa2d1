/-
ReservoirPlot/Proofs/Plot/Delivery.lean

What reads learn of where their bytes come from.  A supply may deliver its bytes
in pieces of any size, and what it does behind the last of them may be anything:
`Supply.Delivers` says only that the bytes come in order, whatever is demanded,
and that the ending comes behind them.

A stream gathers such pieces until it has what a read is missing, so the pieces
cannot be told from the bytes that they make.  Behind that, the stream is one of
two things (`Stream.fill_of_le`, `Stream.fill_of_lt`): it has the bytes at hand,
and has not asked for more, or it has all the bytes that there are and knows how
the supply ended.

A source delivers its bytes, being all at hand (`Stream.delivers_of`).
-/
import ReservoirPlot.Plot.Stream

namespace ReservoirPlot

/-! ### Paces -/

namespace Pace

/-- A pace that grows has room for more. -/
def HasRoom : Pace → Prop
  | growing gathered room limit => gathered < room ∧ 0 < limit
  | _ => True

theorem hasRoom_whole : whole.HasRoom := trivial

theorem hasRoom_even : even.HasRoom := trivial

theorem hasRoom_probing : probing.HasRoom := trivial

theorem hasRoom_grown {gathered room limit : Nat} (hroom : gathered ≤ room) (hlimit : 0 < limit) :
    (grown gathered room limit).HasRoom := by
  refine ⟨?_, hlimit⟩
  have hprobe : 0 < probeSize := by decide
  split <;> omega

/-- While anything is missing, something is demanded. -/
theorem demand_pos {pace : Pace} (h : pace.HasRoom) {missing : Nat} (hmissing : 0 < missing) :
    0 < pace.demand missing := by
  have hpiece : 0 < pieceSize := by decide
  have hprobe : 0 < probeSize := by decide
  cases pace with
  | whole => exact hmissing
  | even => exact Nat.lt_min.mpr ⟨hmissing, hpiece⟩
  | probing => exact Nat.lt_min.mpr ⟨hmissing, hprobe⟩
  | growing gathered room limit =>
    exact Nat.lt_min.mpr ⟨hmissing, Nat.lt_min.mpr ⟨Nat.sub_pos_of_lt h.1, h.2⟩⟩

theorem min_demand_pos {pace : Pace} (h : pace.HasRoom) {missing : Nat} (hmissing : 0 < missing) :
    0 < min missing (pace.demand missing) :=
  Nat.lt_min.mpr ⟨hmissing, demand_pos h hmissing⟩

/-- However many of the bytes that were demanded have come, there is room for more. -/
theorem HasRoom.next {pace : Pace} (h : pace.HasRoom) {missing count : Nat}
    (hcount : count ≤ pace.demand missing) : (pace.next count).HasRoom := by
  cases pace with
  | whole => trivial
  | even => trivial
  | probing => exact hasRoom_grown (Nat.le_max_right _ _) (by decide)
  | growing gathered room limit =>
    have hle : count ≤ room - gathered :=
      Nat.le_trans hcount (Nat.le_trans (Nat.min_le_right _ _) (Nat.min_le_left _ _))
    apply hasRoom_grown
    · have := h.1
      omega
    · have := h.2
      split <;> omega

end Pace

/-! ### Supplies -/

namespace Supply

/-- Whatever is demanded of the supply, it delivers the bytes in pieces and then ends so. -/
inductive Delivers (e : Ending) : Supply → List UInt8 → Prop
  | nothing {s : Supply} (ends : ∀ n, 0 < n → s.deliver n = ([], .ended e)) : Delivers e s []
  | pieces {s : Supply} {bytes : List UInt8}
      (given : ∀ n, 0 < n → (s.deliver n).1 ≠ [] ∧ (s.deliver n).1 <+: bytes)
      (rest : ∀ n, 0 < n → Delivers e (s.deliver n).2 (bytes.drop (s.deliver n).1.length)) :
      Delivers e s bytes

variable {s : Supply} {e : Ending} {bytes : List UInt8}

theorem delivers_ended (e : Ending) : (ended e).Delivers e [] := .nothing fun _ _ => rfl

/-- A demand that is not met has found the end. -/
theorem Delivers.eq_of_empty (h : s.Delivers e bytes) {n : Nat} (hn : 0 < n)
    (hempty : (s.deliver n).1 = []) : bytes = [] ∧ s.deliver n = ([], .ended e) := by
  cases h with
  | nothing ends => exact ⟨rfl, ends n hn⟩
  | pieces given rest => exact absurd hempty (given n hn).1

/-- A demand that is met takes from the front of the bytes. -/
theorem Delivers.eq_append (h : s.Delivers e bytes) {n : Nat} (hn : 0 < n)
    (hgiven : (s.deliver n).1 ≠ []) :
    ∃ rest, bytes = (s.deliver n).1 ++ rest ∧ (s.deliver n).2.Delivers e rest := by
  cases h with
  | nothing ends => rw [ends n hn] at hgiven; exact absurd rfl hgiven
  | pieces given rest =>
    refine ⟨_, ?_, rest n hn⟩
    exact (List.prefix_iff_eq_append.mp (given n hn).2).symm

/-- At any pace, what is missing is gathered from the front of the bytes; the ending is met only
where these are too few. -/
theorem gather_of_delivers (pace : Pace) (missing : Nat) (s : Supply) :
    pace.HasRoom → ∀ {bytes : List UInt8}, s.Delivers e bytes →
      (s.gather pace missing).1 = bytes.take missing
        ∧ (s.gather pace missing).2.Delivers e (bytes.drop missing)
        ∧ (bytes.length < missing → (s.gather pace missing).2 = .ended e) := by
  fun_induction Supply.gather pace missing s with
  | case1 =>
    intro _ bytes h
    exact ⟨rfl, h, fun hlt => absurd hlt (Nat.not_lt_zero _)⟩
  | case2 pace missing s hmissing d hempty =>
    -- Something was demanded and nothing has come, so nothing was left.
    intro hpace bytes h
    have hn : 0 < min missing (pace.demand missing) :=
      Pace.min_demand_pos hpace (Nat.pos_of_ne_zero hmissing)
    obtain ⟨rfl, hd⟩ := h.eq_of_empty hn (List.isEmpty_iff.mp hempty)
    simp only [d, hd, List.take_nil, List.drop_nil]
    exact ⟨trivial, delivers_ended e, fun _ => trivial⟩
  | case3 pace missing s hmissing d hgiven rest =>
    rename_i ih
    -- A piece has come from the front; the rest is gathered from what is behind it.
    intro hpace bytes h
    have hn : 0 < min missing (pace.demand missing) :=
      Pace.min_demand_pos hpace (Nat.pos_of_ne_zero hmissing)
    have hlen : d.1.length ≤ min missing (pace.demand missing) := length_deliver_le _ s
    have hle : d.1.length ≤ missing := Nat.le_trans hlen (Nat.min_le_left _ _)
    obtain ⟨back, rfl, hback⟩ := h.eq_append hn fun hnil => hgiven (List.isEmpty_iff.mpr hnil)
    obtain ⟨htaken, hleft, hends⟩ :=
      ih (hpace.next (Nat.le_trans hlen (Nat.min_le_right _ _))) hback
    refine ⟨?_, ?_, ?_⟩
    · rw [List.take_append, List.take_of_length_le hle]
      exact congrArg (d.1 ++ ·) htaken
    · rw [List.drop_append, List.drop_of_length_le hle]
      exact hleft
    · intro hshort
      refine hends (Nat.lt_sub_of_add_lt ?_)
      rwa [List.length_append, Nat.add_comm] at hshort

end Supply

/-! ### Streams -/

namespace Stream

/-- The bytes at hand and those of the supply are the bytes, and behind them the supply ends
so. -/
def Delivers (s : Stream) (e : Ending) (bytes : List UInt8) : Prop :=
  ∃ rest, bytes = s.unread ++ rest ∧ s.supply.Delivers e rest

variable {s : Stream} {e : Ending} {bytes : List UInt8}

/-- A source delivers its bytes. -/
theorem delivers_of (source : Source) : (Stream.of source).Delivers source.ending source.bytes :=
  ⟨[], (List.append_nil _).symm, Supply.delivers_ended _⟩

/-- Bytes that are at hand can be taken. -/
theorem Delivers.take (h : s.Delivers e bytes) {n : Nat} (hn : n ≤ s.unread.length)
    (offset : Nat) : s.unread.take n = bytes.take n
      ∧ Delivers { s with unread := s.unread.drop n, offset := offset } e (bytes.drop n) := by
  obtain ⟨rest, rfl, hrest⟩ := h
  exact ⟨(List.take_append_of_le_length hn).symm, rest, List.drop_append_of_le_length hn, hrest⟩

/-- To fill a stream is to gather what is missing, also where nothing is left to gather. -/
theorem fill_eq (pace : Pace) (n : Nat) (s : Stream) :
    s.fill pace n = { s with
      unread := s.unread ++ (s.supply.gather pace (n - s.unread.length)).1
      supply := (s.supply.gather pace (n - s.unread.length)).2 } := by
  obtain ⟨unread, supply, offset, progress⟩ := s
  cases supply with
  | ended e => simp only [fill, Supply.gather_ended, List.append_nil]
  | expanding x bound => rfl

/-- Filling a stream changes nothing of what it delivers. -/
theorem Delivers.fill (h : s.Delivers e bytes) {pace : Pace} (hpace : pace.HasRoom) (n : Nat) :
    (s.fill pace n).Delivers e bytes := by
  obtain ⟨rest, rfl, hrest⟩ := h
  obtain ⟨htaken, hleft, -⟩ := Supply.gather_of_delivers pace (n - s.unread.length) _ hpace hrest
  rw [fill_eq, htaken]
  exact ⟨_, by rw [List.append_assoc, List.take_append_drop], hleft⟩

/-- Where there are bytes enough, they are at hand afterwards. -/
theorem Delivers.le_length_fill (h : s.Delivers e bytes) {pace : Pace} (hpace : pace.HasRoom)
    {n : Nat} (hn : n ≤ bytes.length) : n ≤ (s.fill pace n).unread.length := by
  obtain ⟨rest, rfl, hrest⟩ := h
  obtain ⟨htaken, -⟩ := Supply.gather_of_delivers pace (n - s.unread.length) _ hpace hrest
  rw [fill_eq, htaken]
  simp only [List.length_append, List.length_take] at hn ⊢
  omega

/-- Where there are too few bytes, they are all at hand afterwards, and the ending is known. -/
theorem Delivers.fill_of_lt (h : s.Delivers e bytes) {pace : Pace} (hpace : pace.HasRoom)
    {n : Nat} (hn : bytes.length < n) :
    (s.fill pace n).unread = bytes ∧ (s.fill pace n).ending = e := by
  obtain ⟨rest, rfl, hrest⟩ := h
  rw [List.length_append] at hn
  have hlt : rest.length < n - s.unread.length := by omega
  obtain ⟨htaken, -, hends⟩ := Supply.gather_of_delivers pace (n - s.unread.length) _ hpace hrest
  rw [fill_eq, htaken, List.take_of_length_le (Nat.le_of_lt hlt), hends hlt]
  exact ⟨rfl, rfl⟩

end Stream

end ReservoirPlot
