/-
ReservoirPlot/Proofs/Plot/Course.lean

A reading as it goes on.  A read says what a stream gives in the end, not what is
held on the way.  A `Course` cuts it into stages: each stage reads on and leads to
the next one, or to the value.  What has been reached after a number of stages is
then a moment of the reading (`Course.upTo`).

Two conditions say that a course is one of a given read and that it moves on:

* `Course.Cuts`: what is still to be read at a stage is what the stage reads, and
  then what is still to be read after it;
* `Course.Pays`: a stage takes a byte for each unit that it adds to what is held,
  and at least one byte, where a stage that may take none draws on what was put
  aside for it.

From them the course comes to the result of the read within as many stages as there
are bytes (`Course.Pays.ends`), and at every moment no more is held than bytes have
been taken (`Course.Pays.held_le`).  Both go by one stage at a time.
-/
import ReservoirPlot.Proofs.Plot.Recognition

namespace ReservoirPlot

open Reading

/-- A read in stages: each reads on and leads to the next stage or to the value. -/
abbrev Course (σ α : Type) := σ → Reading (σ ⊕ α)

namespace Course

variable {σ α : Type} {c : Course σ α} {rest : σ → Reading α} {held : σ ⊕ α → Nat}
  {aside : σ → Nat}

/-- The first stages of a read, as far as there are so many. -/
def upTo (c : Course σ α) : Nat → σ → Reading (σ ⊕ α)
  | 0, x => pure (.inl x)
  | n + 1, x => c x >>= Sum.elim (c.upTo n) fun a => pure (.inr a)

/-- A stage and what is to be read after it are what is to be read at the stage. -/
def Cuts (c : Course σ α) (rest : σ → Reading α) : Prop :=
  ∀ x, rest x = c x >>= Sum.elim rest pure

/-- That `n` bytes are enough to come from a stage to what is reached after it: for what is added
to what is held, and to move on. -/
structure Affords (held : σ ⊕ α → Nat) (aside : σ → Nat) (x : σ) (n : Nat) (z : σ ⊕ α) : Prop where
  held_le : held z ≤ held (.inl x) + n
  aside_lt : ∀ y, z = .inl y → aside y < aside x + n

/-- Each stage takes the bytes for what is reached after it. -/
def Pays (c : Course σ α) (held : σ ⊕ α → Nat) (aside : σ → Nat) : Prop :=
  ∀ (x : σ) (s t : Stream) (z : σ ⊕ α), s.AtHand → c x s = .ok z t →
    ∃ bytes, s.Takes bytes t ∧ Affords held aside x bytes.length z

theorem affords_inl {x y : σ} {n : Nat} : Affords held aside x n (.inl y)
    ↔ held (.inl y) ≤ held (.inl x) + n ∧ aside y < aside x + n := by
  constructor
  · intro h
    exact ⟨h.held_le, h.aside_lt y rfl⟩
  · rintro ⟨hheld, haside⟩
    exact ⟨hheld, fun _ hy => Sum.inl.inj hy ▸ haside⟩

theorem affords_inr {x : σ} {a : α} {n : Nat} : Affords held aside x n (.inr a)
    ↔ held (.inr a) ≤ held (.inl x) + n :=
  ⟨fun h => h.held_le, fun h => ⟨h, nofun⟩⟩

/-- A stage of one read pays if the bytes of the read are enough. -/
theorem pays_of_read {β : Type} {r : Reading β} {G : Grammar β} {g : β → σ ⊕ α} {x : σ}
    (hr : Recognizes r G) (hG : ∀ bytes b, G bytes b → Affords held aside x bytes.length (g b))
    {s t : Stream} {z : σ ⊕ α} (hs : s.AtHand)
    (h : (r >>= fun b => pure (g b)) s = .ok z t) :
    ∃ bytes, s.Takes bytes t ∧ Affords held aside x bytes.length z := by
  obtain ⟨bytes, ⟨b, hbytes, rfl⟩, htakes⟩ := (hr.map g).sound hs h
  exact ⟨bytes, htakes, hG bytes b hbytes⟩

/-- The moment at which a reading has come to its result. -/
def ended : EStateM.Result DecodeError Stream α → EStateM.Result DecodeError Stream (σ ⊕ α)
  | .ok a t => .ok (.inr a) t
  | .error e t => .error e t

/-- **No more is held than has been taken.** -/
theorem Pays.held_le (hc : c.Pays held aside) {n : Nat} {x : σ} {s t : Stream} {z : σ ⊕ α}
    (hs : s.AtHand) (h : c.upTo n x s = .ok z t) :
    ∃ taken, s.Takes taken t ∧ held z ≤ held (.inl x) + taken.length := by
  induction n generalizing x s with
  | zero =>
    cases h
    exact ⟨[], Stream.Takes.refl _, Nat.le_refl _⟩
  | succ n ih =>
    obtain ⟨w, u, hstage, hlater⟩ := bind_eq_ok.mp h
    obtain ⟨front, hsu, hfront⟩ := hc _ _ _ _ hs hstage
    rcases w with y | a
    · obtain ⟨back, hut, hback⟩ := ih (hsu.atHand hs) hlater
      refine ⟨front ++ back, hsu.trans hut, ?_⟩
      have hy := hfront.held_le
      rw [List.length_append]
      omega
    · cases hlater
      exact ⟨front, hsu, hfront.held_le⟩

/-- **The stages come to the result of the read**, within as many as there are bytes and what was
put aside. -/
theorem Pays.ends (hc : c.Pays held aside) (hrest : c.Cuts rest) (x : σ) {s : Stream}
    (hs : s.AtHand) :
    ∃ n ≤ s.unread.length + aside x + 1, c.upTo n x s = ended (rest x s) := by
  -- A stage leaves fewer bytes, or as many and less put aside.
  induction hm : s.unread.length + aside x using Nat.strongRecOn generalizing x s with
  | _ m ih =>
    rw [hrest x]
    simp only [bind, EStateM.bind]
    rcases hstage : c x s with ⟨y | a, t⟩ | ⟨e, t⟩
    · obtain ⟨bytes, hst, hbytes⟩ := hc _ _ _ _ hs hstage
      have hless : t.unread.length + aside y < m := by
        have haside := hbytes.aside_lt y rfl
        rw [← hm, hst.unread, List.length_append]
        omega
      obtain ⟨n, hn, hlater⟩ := ih _ hless y (hst.atHand hs) rfl
      refine ⟨n + 1, by omega, ?_⟩
      simp only [upTo, bind, EStateM.bind, hstage]
      exact hlater
    · refine ⟨1, by omega, ?_⟩
      simp only [upTo, bind, EStateM.bind, hstage]
      rfl
    · refine ⟨1, by omega, ?_⟩
      simp only [upTo, bind, EStateM.bind, hstage]
      rfl

end Course

end ReservoirPlot
