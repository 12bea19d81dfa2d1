/-
ReservoirPlot/Proofs/CommandLine/Log.lean

What the program says.  A step only ever adds to the log; `Step.Says` gives the
entries that it adds and the value that it comes to.  Steps in sequence say their
entries in sequence (`Step.Says.bind`), and a loop says those of its rounds
(`says_forIn`).

From these, `says_convert` gives the log of a conversion.
-/
import ReservoirPlot.CommandLine

namespace ReservoirPlot.CommandLine

variable {α β : Type}

/-- The step adds the entries to the log, whatever is in it, and gives the value. -/
def Step.Says (r : Step α) (entries : List Entry) (a : α) : Prop :=
  ∀ log, r log = .ok a (log ++ entries)

theorem says_pure (a : α) : (pure a : Step α).Says [] a := by
  intro log
  show EStateM.Result.ok a log = _
  rw [List.append_nil]

theorem says_say (level : Level) (text : String) :
    (say level text).Says [⟨level, Text.visible text⟩] () :=
  fun _ => rfl

theorem Step.Says.bind {r : Step α} {f : α → Step β} {front back : List Entry} {a : α} {b : β}
    (hr : r.Says front a) (hf : (f a).Says back b) : Step.Says (r >>= f) (front ++ back) b := by
  intro log
  show EStateM.bind r f log = _
  rw [EStateM.bind, hr log]
  show f a (log ++ front) = _
  rw [hf, List.append_assoc]

theorem Step.Says.andThen {r : Step α} {q : Step β} {front back : List Entry} {a : α} {b : β}
    (hr : r.Says front a) (hq : q.Says back b) :
    Step.Says (r >>= fun _ => q) (front ++ back) b :=
  hr.bind hq

/-- A loop that says one thing in each round. -/
theorem says_forIn (level : Level) (text : α → String) (xs : List α) :
    Step.Says (forIn xs PUnit.unit fun x _ => do
      say level (text x)
      pure (ForInStep.yield PUnit.unit)) (xs.map fun x => ⟨level, Text.visible (text x)⟩) () := by
  induction xs with
  | nil => exact says_pure ()
  | cons x xs ih =>
    -- A round never ends the loop, so its entry stands before those of the rounds to come.
    rw [List.forIn_cons]
    have hround : Step.Says (do say level (text x); pure (ForInStep.yield PUnit.unit))
        [⟨level, Text.visible (text x)⟩] (ForInStep.yield PUnit.unit) :=
      (says_say level (text x)).andThen (says_pure _)
    show Step.Says _ ([_] ++ xs.map _) ()
    exact hround.bind ih

/-- What is said about a vector. -/
def vectorText (v : SummaryVector) : String :=
  v.keyword ++ " [" ++ v.unit ++ s!"]: {v.points.length} points"

/-- The outcome of a conversion in numbers. -/
def conversionText (o : SeriesOptions) (series : Series) : String :=
  let counts := s!"{series.vectors.length} vectors over {series.timeAxis.length} timesteps"
  let source := s!"{o.className}/{o.instanceName}"
  s!"Converted {source}: {counts}, {series.skipped.length} skipped"

/-- A conversion says its warnings before anything else, then its numbers, and then once more
what became of the variables. -/
theorem says_convert {p : Plot} {o : SeriesOptions} {series : Series}
    (h : p.series o = .ok series) : (convert p o).Says
      (series.warnings.map (fun text => ⟨.warning, Text.visible text⟩)
        ++ ⟨.debug, Text.visible (conversionText o series)⟩
          :: (series.vectors.map (fun v => ⟨.info, Text.visible (vectorText v)⟩)
            ++ series.skippedCodes.map fun code =>
              ⟨.warning, Text.visible s!"Not converted: {code.trimmed}"⟩)) series := by
  have hsettle : (settle ((p.series o).mapError Failure.conflicting)).Says [] series := by
    rw [h]
    exact says_pure series
  have hvectors := says_forIn .info vectorText series.vectors
  have hskipped := says_forIn .warning (fun code : VariableCode =>
    s!"Not converted: {code.trimmed}") series.skippedCodes
  have hrest := (says_say .debug (conversionText o series)).andThen
    (hvectors.andThen (hskipped.andThen (says_pure series)))
  rw [List.append_nil] at hrest
  exact hsettle.bind ((says_forIn .warning id series.warnings).andThen hrest)

end ReservoirPlot.CommandLine
