/-
ReservoirPlot/Proofs/Compression/Gzip.lean

What a gzip member delivers.  Its parts are the windows of what was expanded, cut
once more where a further piece of the file was fetched, and a demand is met from
one part or from several.  Unless a fault stands among the parts, they make up
what was expanded, and every demand takes from its front (`Reader.deliver_meets`).
So the member delivers what was expanded, also where its file was cut or its
trailer is wrong: that shows only in how it ends.

Main result: `Reader.delivers_ofBytes`.
-/
import ReservoirPlot.Proofs.Plot.Delivery

namespace ReservoirPlot

namespace Gzip

/-! ### Parts -/

/-- The bytes of a part. -/
def Part.content : Part → List UInt8
  | bytes content _ => content
  | fault => []

/-- A part that holds bytes, of which there are some where a demand ends behind it. -/
def Part.IsSound : Part → Prop
  | bytes content goesOn => goesOn = false → content ≠ []
  | fault => False

theorem flatten_windows (room : Nat) (content : List UInt8) :
    (windows room content).flatten = content := by
  fun_induction windows room content with
  | case1 => exact List.append_nil _
  | case2 room content _ ih => rw [List.flatten_cons, ih, List.take_append_drop]

/-- The parts of what was expanded between two fetches make it up. -/
theorem flatMap_partsOf (start : Nat) (content : List UInt8) :
    (partsOf start content).flatMap Part.content = content := by
  have hflatten : (windowsFrom start content).flatten = content := flatten_windows _ content
  simp only [partsOf, List.flatMap_append, List.flatMap_map, Part.content]
  rcases List.eq_nil_or_concat (windowsFrom start content) with hnil | ⟨front, last, hconcat⟩
  · rw [hnil] at hflatten ⊢
    exact hflatten
  · rw [hconcat] at hflatten ⊢
    simpa using hflatten

/-- The parts make up what was expanded, wherever pieces were fetched. -/
theorem flatMap_partsBetween (start : Nat) (fetches : List Nat) (output : List UInt8) :
    (partsBetween partsOf start fetches output).flatMap Part.content = output := by
  induction fetches generalizing start output with
  | nil => exact flatMap_partsOf start output
  | cons fetch fetches ih =>
    rw [partsBetween, List.flatMap_append, flatMap_partsOf, ih, List.take_append_drop]

/-! ### Demands -/

namespace Reader

/-- The bytes that are still to be read of a member. -/
def content (r : Reader) : List UInt8 := r.pending ++ r.parts.flatMap Part.content

/-- The bytes are some from the front of the content, and the rest of it is left in sound
parts; or there is no content, and the member ends. -/
def Meets (e : Ending) (n : Nat) (content : List UInt8) : Delivery Reader → Prop
  | .bytes given rest => given ≠ [] ∧ given.length ≤ n ∧ given ++ rest.content = content
      ∧ rest.ending = e ∧ ∀ part ∈ rest.parts, part.IsSound
  | .ended ending => content = [] ∧ ending = e

theorem gather_meets (e : Ending) {parts : List Part} (h : ∀ part ∈ parts, part.IsSound) {n : Nat}
    (hn : 0 < n) (given : List UInt8) :
    Meets e (given.length + n) (given ++ parts.flatMap Part.content) (gather e n given parts) := by
  induction parts generalizing n given with
  | nil =>
    rcases given with - | ⟨b, given⟩
    · exact ⟨rfl, rfl⟩
    · exact ⟨List.cons_ne_nil _ _, Nat.le_add_right _ _, rfl, rfl, nofun⟩
  | cons part parts ih =>
    obtain ⟨hpart, hparts⟩ := List.forall_mem_cons.mp h
    cases part with
    | fault => exact hpart.elim
    | bytes content goesOn =>
      rw [List.flatMap_cons, Part.content, ← List.append_assoc]
      simp only [gather]
      split
      · next hgoesOn =>
        -- The part is used up, and what is still demanded comes from the parts behind it.
        have hlt : content.length < n := of_decide_eq_true (Bool.and_eq_true_iff.mp hgoesOn).2
        have hmeets := ih hparts (Nat.sub_pos_of_lt hlt) (given ++ content)
        rw [List.length_append, Nat.add_assoc, Nat.add_sub_cancel' (Nat.le_of_lt hlt)] at hmeets
        rwa [List.take_of_length_le (Nat.le_of_lt hlt)]
      · next hstops =>
        refine ⟨?_, ?_, ?_, rfl, hparts⟩
        · -- A demand ends behind the part, or the part is not used up.
          have hcontent : content ≠ [] := by
            cases goesOn with
            | false => exact hpart rfl
            | true =>
              rintro rfl
              exact hstops (decide_eq_true hn)
          simp [hcontent, Nat.ne_of_gt hn]
        · rw [List.length_append, List.length_take]
          omega
        · rw [Reader.content, List.append_assoc, ← List.append_assoc (content.take n),
            List.take_append_drop, List.append_assoc]

/-- A demand on a member is met from the front of its content. -/
theorem deliver_meets {r : Reader} (h : ∀ part ∈ r.parts, part.IsSound) {n : Nat} (hn : 0 < n) :
    Meets r.ending n r.content (r.deliver n) := by
  obtain ⟨pending, parts, ending⟩ := r
  rcases pending with - | ⟨b, pending⟩
  · have hmeets := gather_meets ending h hn []
    rwa [List.length_nil, Nat.zero_add] at hmeets
  · refine ⟨?_, ?_, ?_, rfl, h⟩
    · simp [Nat.ne_of_gt hn]
    · exact List.length_take_le n _
    · rw [Reader.content, ← List.append_assoc, List.take_append_drop]
      rfl

/-- A supply that its bound does not meet delivers what the member does. -/
theorem deliver_expanding {r : Reader} (h : ∀ part ∈ r.parts, part.IsSound) {bound : Nat}
    (hbound : r.content.length ≤ bound) {n : Nat} (hn : 0 < n) :
    (r.content = [] ∧ (Supply.expanding (.gzip r) bound).deliver n = ([], .ended r.ending))
    ∨ ∃ given rest, given ≠ [] ∧ given ++ rest.content = r.content ∧ rest.ending = r.ending
      ∧ (∀ part ∈ rest.parts, part.IsSound) ∧ (Supply.expanding (.gzip r) bound).deliver n
        = (given, .expanding (.gzip rest) (bound - given.length)) := by
  have hmeets := deliver_meets h hn
  simp only [Supply.deliver, Expansion.deliver]
  rcases hd : r.deliver n with ⟨given, rest⟩ | ending
  all_goals rw [hd] at hmeets
  · obtain ⟨hgiven, hlen, hcontent, hending, hsound⟩ := hmeets
    have hle : given.length ≤ bound := by
      rw [← hcontent, List.length_append] at hbound
      omega
    refine .inr ⟨given, rest, hgiven, hcontent, hending, hsound, ?_⟩
    simp only [Delivery.map, List.take_of_length_le (Nat.le_min.mpr ⟨hlen, hle⟩)]
  · obtain ⟨hcontent, rfl⟩ := hmeets
    exact .inl ⟨hcontent, rfl⟩

/-- **A member whose parts are sound delivers its content** and then ends as it does, if its bound
is not met. -/
theorem delivers {r : Reader} (h : ∀ part ∈ r.parts, part.IsSound) {bound : Nat}
    (hbound : r.content.length ≤ bound) :
    (Supply.expanding (.gzip r) bound).Delivers r.ending r.content := by
  induction hlength : r.content.length using Nat.strongRecOn generalizing r bound with
  | _ length ih =>
    by_cases hcontent : r.content = []
    · rw [hcontent]
      refine .nothing fun n hn => ?_
      rcases deliver_expanding h hbound hn with ⟨-, hends⟩ | ⟨given, rest, hgiven, hall, -⟩
      · exact hends
      · rw [hcontent, List.append_eq_nil_iff] at hall
        exact absurd hall.1 hgiven
    · refine .pieces (fun n hn => ?_) fun n hn => ?_
      all_goals
        obtain ⟨hnil, -⟩ | ⟨given, rest, hgiven, hall, hending, hsound, hdeliver⟩ :=
          deliver_expanding h hbound hn
        · exact absurd hnil hcontent
        rw [hdeliver]
      · exact ⟨hgiven, _, hall⟩
      · -- What is left is shorter by the bytes that have been given.
        have hshorter : given.length + rest.content.length = r.content.length := by
          rw [← hall, List.length_append]
        have hpos := List.length_pos_iff.mpr hgiven
        rw [← hall, List.drop_left, ← hending]
        exact ih _ (by omega) hsound (by omega) rfl

end Reader

/-! ### Members -/

theorem ne_fault_of_mem_partsOf {start : Nat} {content : List UInt8} {part : Part}
    (h : part ∈ partsOf start content) : part ≠ .fault := by
  rcases List.mem_append.mp h with h | h
  all_goals
    obtain ⟨_, -, rfl⟩ := List.mem_map.mp h
    exact nofun

theorem ne_fault_of_mem {start : Nat} {fetches : List Nat} {output : List UInt8} {part : Part}
    (h : part ∈ partsBetween partsOf start fetches output) : part ≠ .fault := by
  induction fetches generalizing start output with
  | nil => exact ne_fault_of_mem_partsOf h
  | cons fetch fetches ih =>
    rcases List.mem_append.mp h with h | h
    · exact ne_fault_of_mem_partsOf h
    · exact ih h

/-- What was expanded without a fault is in sound parts. -/
theorem isSound_of_mem {s : Expanding} {part : Part} (h : part ∈ partsOfExpanding partsOf s) :
    part.IsSound := by
  obtain ⟨hmem, hkept⟩ := List.mem_filter.mp h
  cases part with
  | fault => exact absurd rfl (ne_fault_of_mem hmem)
  | bytes content goesOn =>
    rintro rfl rfl
    exact absurd hkept (by decide)

/-- A part that is left out holds no bytes. -/
theorem flatMap_filter_content (parts : List Part) :
    (parts.filter (· != .bytes [] false)).flatMap Part.content = parts.flatMap Part.content := by
  induction parts with
  | nil => rfl
  | cons part parts ih =>
    by_cases h : part = .bytes [] false
    · subst h
      exact ih
    · have hkept : (part != .bytes [] false) = true := bne_iff_ne.mpr h
      rw [List.filter_cons, if_pos hkept, List.flatMap_cons, List.flatMap_cons, ih]

theorem flatMap_partsOfExpanding (s : Expanding) :
    (partsOfExpanding partsOf s).flatMap Part.content = s.output.toList := by
  rw [partsOfExpanding, flatMap_filter_content, flatMap_partsBetween]

/-- What is expanded of the first member in some bytes, unless its deflate stream has a fault. -/
def expanded? (file : List UInt8) : Option (List UInt8) :=
  match header (.start file) with
  | .error _ _ => some []
  | .ok _ s =>
    match Deflate.stream s with
    | .error .corrupt _ => none
    | .error .exhausted s => some s.output.toList
    | .ok _ s => some s.output.toList

/-- What is expanded is in the parts of the member. -/
theorem Reader.parts_ofBytes {file bytes : List UInt8} (h : expanded? file = some bytes) :
    (Reader.ofBytes file).content = bytes
      ∧ ∀ part ∈ (Reader.ofBytes file).parts, part.IsSound := by
  revert h
  unfold expanded? Reader.ofBytes
  rcases header (.start file) with ⟨_, s⟩ | ⟨e, s⟩
  · dsimp only
    rcases Deflate.stream s with ⟨_, s⟩ | ⟨_ | _, s⟩
    · -- The trailer decides on the ending only.
      rintro ⟨⟩
      dsimp only
      rcases trailer s with - | -
      all_goals exact ⟨flatMap_partsOfExpanding s, fun part => isSound_of_mem⟩
    · rintro ⟨⟩
      exact ⟨flatMap_partsOfExpanding s, fun part => isSound_of_mem⟩
    · exact nofun
  · rintro ⟨⟩
    exact ⟨rfl, nofun⟩

/-- **A member delivers what is expanded of it**: a cut or a wrong trailer shows only in how it
ends. -/
theorem Reader.delivers_ofBytes {file bytes : List UInt8} (h : expanded? file = some bytes)
    {bound : Nat} (hbound : bytes.length ≤ bound) :
    (Supply.expanding (.gzip (.ofBytes file)) bound).Delivers (Reader.ofBytes file).ending
      bytes := by
  obtain ⟨rfl, hsound⟩ := Reader.parts_ofBytes h
  exact Reader.delivers hsound hbound

end Gzip

/-- The stream of a compressed file delivers what is expanded of it. -/
theorem Stream.delivers_ofFile {file bytes : List UInt8} (h : Gzip.expanded? file = some bytes)
    (hbound : bytes.length ≤ Supply.maxGrowth * (file.length + 1)) (isBuffered : Bool) :
    (Stream.ofFile .gzip isBuffered ⟨file, .clean⟩).Delivers (Gzip.Reader.ofBytes file).ending
      bytes :=
  ⟨bytes, rfl, Gzip.Reader.delivers_ofBytes h hbound⟩

end ReservoirPlot
