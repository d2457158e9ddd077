import TokenMacros.CommandLine.Run
import TokenMacros.Proofs.RunGuarantees

/-!
# Refused settings

Why a configuration and what overrides it are refused.  Values of a wrong kind
in a configuration file are explained as faults of the file.  What is not
explained is an infinite number and an integer of too many digits.
-/

namespace TokenMacros

/-! ## Values -/

/-- The stop gives a reason that a configuration file can be blamed for. -/
def Stop.HasReason (stop : Stop) : Prop :=
  (Configuration.reason? stop).isSome = true

namespace Value

theorem toKey_yields (value : Value) :
    Yields (fun _ => True) Stop.HasReason value.toKey := by
  cases value with
  | list _ => exact rfl
  | table _ => exact rfl
  | _ => exact trivial

theorem toPair_yields (index : Nat) (element : Value) :
    Yields (fun _ => True) Stop.HasReason (toPair index element) := by
  unfold toPair
  split
  · exact rfl
  · next key value _ =>
      apply Yields.bind (toKey_yields key)
      exact fun _ _ => trivial
  · exact rfl

theorem toTable_yields (value : Value) :
    Yields (fun _ => True) Stop.HasReason value.toTable := by
  unfold toTable
  split
  · exact trivial
  · split
    · exact rfl
    · apply Yields.bind (Yields.mapM fun _ _ => toPair_yields _ _)
      exact fun _ _ => trivial

/-- A value that is no whole number is refused with a reason, unless it is
infinite. -/
theorem toWhole_yields (value : Value) :
    Yields (fun _ => True) (fun stop => stop.HasReason ∨
      stop = .infinite ∧ ∃ negative, value = .float (.infinity negative))
      value.toWhole := by
  cases value with
  | float number =>
      cases number with
      | infinity negative => exact .inr ⟨rfl, negative, rfl⟩
      | nan => exact .inl rfl
      | finite => exact trivial
  | text written =>
      rw [toWhole, wholeOfText]
      split
      · exact trivial
      · exact .inl rfl
      · exact .inl rfl
  | boolean _ => exact trivial
  | integer _ => exact trivial
  | _ => exact .inl rfl

end Value

/-! ## Configuration files -/

namespace Configuration

/-- Values have been converted where their kind matters: the iteration limit is
a whole number, the settings of plugins are a table. -/
structure Converted (configuration : Configuration) : Prop where
  limit : ∃ rounds, configuration.maxIterations = .integer rounds
  settings : ∃ entries, configuration.pluginSettings = .table entries

theorem converted_default : Converted {} :=
  ⟨⟨_, rfl⟩, ⟨_, rfl⟩⟩

theorem textsOf_yields (document : Toml.Table) (key : String) :
    Yields (fun _ => True) Stop.HasReason (textsOf document key) := by
  unfold textsOf
  split
  · exact trivial
  · simp only
    split
    · exact trivial
    · exact rfl
  · exact rfl

/-- The document sets the iteration limit to an infinite number. -/
def HasInfiniteLimit (document : Toml.Table) : Prop :=
  ∃ negative, document.entry? "max_iterations" =
    some (.float (.infinity negative))

theorem ofDocument_yields (base : Path) (document : Toml.Table) :
    Yields Converted
      (fun stop => stop.HasReason ∨ stop = .infinite ∧ HasInfiniteLimit document)
      (ofDocument base document) := by
  have texts (key : String) : Yields (fun _ => True)
      (fun stop => stop.HasReason ∨ stop = .infinite ∧ HasInfiniteLimit document)
      (textsOf document key) :=
    (textsOf_yields document key).mono (fun _ => id) fun _ => .inl
  apply Yields.bind (texts _)
  intro _ _
  apply Yields.bind (texts _)
  intro _ _
  apply Yields.bind (texts _)
  intro _ _
  refine Yields.bind ((Value.toTable_yields _).mono (fun _ => id) fun _ => .inl)
    ?_
  intro _ _
  refine Yields.bind ((Value.toWhole_yields _).mono (fun _ => id) ?_) ?_
  · rintro stop (reason | ⟨infinite, negative, limit⟩)
    · exact .inl reason
    · refine .inr ⟨infinite, negative, ?_⟩
      cases held : document.entry? "max_iterations" with
      | none =>
          rw [held] at limit
          cases limit
      | some value =>
          rw [held] at limit
          exact congrArg some limit
  · exact fun _ _ => ⟨⟨_, rfl⟩, ⟨_, rfl⟩⟩

/-- What stops the reading of a configuration file without an explanation. -/
inductive Unreadable (text : String) : Stop → Prop where
  /-- An integer of too many digits. -/
  | tooManyDigits (digits : Toml.parse text = .error .tooManyDigits) :
      Unreadable text (.wrongValue Toml.tooManyDigitsMessage)
  /-- An infinite iteration limit. -/
  | infinite {document : Toml.Table} (parsed : Toml.parse text = .ok document)
      (limit : HasInfiniteLimit document) : Unreadable text .infinite

theorem isExplained_of_hasReason {stop : Stop} (reason : stop.HasReason)
    (invalid : String → Failure) :
    (((reason? stop).map fun reason => Stop.failed (invalid reason)).getD
      stop).isExplained = true := by
  obtain ⟨reason, told⟩ := Option.isSome_iff_exists.mp reason
  rw [told]
  rfl

theorem parse_yields (path : Path) (text : String) :
    Yields Converted (ExplainedOr (Unreadable text)) (parse path text) := by
  rw [parse]
  split
  · next document parsed =>
      simp only [pure_bind]
      split
      · have converted : Yields Converted (ExplainedOr (Unreadable text))
            ((ofDocument path.parent document).mapError fun stop =>
              ((reason? stop).map fun reason =>
                .failed (.configurationInvalid path.toString reason)).getD
                  stop) := by
          apply (ofDocument_yields path.parent document).mapError
          rintro stop (reason | ⟨rfl, limit⟩)
          · exact .inl (isExplained_of_hasReason reason _)
          · exact .inr (.infinite parsed limit)
        apply Yields.bind converted
        intro configuration converted
        split
        · split
          · exact .inl rfl
          · exact converted
        · exact converted
      · exact .inl rfl
  · exact .inl rfl
  · next digits => exact .inr (.tooManyDigits digits)

end Configuration

/-! ## Overrides -/

/-- What a command line can override. -/
structure Overrides.OfCommand (overrides : Overrides) : Prop where
  plugins : overrides.plugins = none
  settings : overrides.pluginSettings = none
  limit : ∀ value ∈ overrides.maxIterations, ∃ rounds, value = .integer rounds
  verbose : ∃ wanted, overrides.verbose = some (.boolean wanted)
  fallback : ∃ wanted, overrides.singleTokenFallback = some (.boolean wanted)

namespace Arguments

theorem overrides_ofCommand (arguments : Arguments) :
    arguments.overrides.OfCommand := by
  refine ⟨rfl, rfl, ?_, ⟨_, rfl⟩, ⟨_, rfl⟩⟩
  intro value given
  obtain ⟨rounds, _, rfl⟩ := Option.map_eq_some_iff.mp given
  exact ⟨rounds, rfl⟩

end Arguments

namespace Overrides

/-- What a command line overrides can be merged into every configuration. -/
theorem merge_yields {overrides : Overrides} {base : Configuration}
    (plain : overrides.OfCommand) (converted : base.Converted) :
    Yields Configuration.Converted (fun _ => False) (overrides.merge base) := by
  have switched (current : Value) (wanted : Bool) :
      Yields (fun _ => True) (fun _ => False)
        (value current (some (.boolean wanted))) := by
    cases wanted with
    | true => exact trivial
    | false => exact trivial
  have limited : Yields (fun limit => ∃ rounds, limit = .integer rounds)
      (fun _ => False) (value base.maxIterations overrides.maxIterations) := by
    cases given : overrides.maxIterations with
    | none => exact converted.limit
    | some limit =>
        obtain ⟨rounds, rfl⟩ := plain.limit limit given
        exact ⟨rounds, rfl⟩
  obtain ⟨_, verbose⟩ := plain.verbose
  obtain ⟨_, fallback⟩ := plain.fallback
  rw [merge, plain.settings, verbose, fallback]
  apply Yields.bind (switched _ _)
  intro _ _
  apply Yields.bind limited
  intro limit whole
  apply Yields.bind (switched _ _)
  intro _ _
  exact ⟨whole, converted.settings⟩

end Overrides

end TokenMacros
