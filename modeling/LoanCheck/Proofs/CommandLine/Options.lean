import LoanCheck.CommandLine.Options
import LoanCheck.Proofs.Scope.Transition

/-!
# Asking for data

Whether data is asked for has no bearing on how the rest of the command line is read: with
`--json` in front, the same arguments are accepted and ask for the same, as data.
-/

namespace LoanCheck.CommandLine

def Options.asData (options : Options) : Options := { options with json := true }

def Taken.asData (taken : Taken) : Taken := { taken with options := taken.options.asData }

namespace Options

theorem setFlag_asData (options : Options) (switch : Switch) :
    options.asData.setFlag switch = asData <$> options.setFlag switch := by
  cases switch <;> rfl

theorem setFlags_asData (options : Options) (switches : List Switch) :
    options.asData.setFlags switches = asData <$> options.setFlags switches := by
  induction switches generalizing options with
  | nil => rfl
  | cons switch rest inductionHypothesis =>
      simp only [setFlags, List.foldlM_cons] at inductionHypothesis ⊢
      rw [setFlag_asData]
      cases options.setFlag switch with
      | ok set => exact inductionHypothesis set
      | error refusal => rfl

theorem setValue_asData (options : Options) (switch : Switch) (value : List Char) :
    options.asData.setValue switch value = asData <$> options.setValue switch value := by
  cases switch with
  | maxStatements =>
      simp only [setValue]
      cases numberValue (Given.ofText value) <;> rfl
  | jobs =>
      simp only [setValue]
      cases numberValue (Given.ofText value) <;> rfl
  | _ => rfl

end Options

theorem takeTexts_asData (taken : Taken) (arguments : List Argument) :
    taken.asData.takeTexts arguments = (taken.takeTexts arguments).asData := by
  obtain ⟨options, sourcesTaken, extras⟩ := taken
  simp only [Taken.takeTexts, Taken.asData]
  cases sourcesTaken <;> cases leadingTexts arguments <;> rfl

/-- Where options are set in the same way, what follows is taken in the same way. -/
theorem bind_asData {first : Except Refusal Options}
    {next nextAsData : Options → Except Refusal Taken}
    (follows : ∀ options, nextAsData options.asData = Taken.asData <$> next options) :
    (Options.asData <$> first) >>= nextAsData = Taken.asData <$> (first >>= next) := by
  cases first with
  | ok options => exact follows options
  | error refusal => rfl

theorem takeAll_asData (taken : Taken) (inTexts : Bool) (arguments : List Argument) :
    takeAll taken.asData inTexts arguments = Taken.asData <$> takeAll taken inTexts arguments := by
  fun_induction takeAll taken inTexts arguments with
  | case1 taken inTexts => rfl
  | case2 taken value rest inductionHypothesis => exact inductionHypothesis
  | case3 taken inTexts value rest outside inductionHypothesis =>
      rw [takeAll, if_neg outside, takeTexts_asData]
      exact inductionHypothesis
  | case4 taken rest inductionHypothesis => exact inductionHypothesis
  | case5 taken inTexts rest outside inductionHypothesis =>
      rw [takeAll, if_neg outside, takeTexts_asData]
      exact inductionHypothesis
  | case6 taken inTexts rest inductionHypothesis => exact inductionHypothesis
  | case7 taken inTexts switch letters rest alone =>
      simp only [takeAll, alone]
      rfl
  | case8 taken inTexts switch letters rest switches cluster inductionHypothesis =>
      simp only [takeAll, cluster]
      rw [show taken.asData.options = taken.options.asData from rfl, Options.setFlags_asData]
      exact bind_asData inductionHypothesis
  | case9 taken inTexts switch valued value rest inductionHypothesis =>
      rw [takeAll.eq_def]
      simp only [valued, if_true]
      rw [show taken.asData.options = taken.options.asData from rfl, Options.setValue_asData]
      exact bind_asData inductionHypothesis
  | case10 taken inTexts switch valued value rest inductionHypothesis =>
      rw [takeAll.eq_def]
      simp only [valued, if_true]
      rw [show taken.asData.options = taken.options.asData from rfl, Options.setValue_asData]
      exact bind_asData inductionHypothesis
  | case11 taken inTexts switch rest valued absent =>
      rw [takeAll.eq_def]
      simp only [valued, if_true]
      rfl
  | case12 taken inTexts switch rest flag inductionHypothesis =>
      rw [takeAll.eq_def]
      simp only [flag, Bool.false_eq_true, if_false]
      rw [show taken.asData.options = taken.options.asData from rfl, Options.setFlag_asData]
      exact bind_asData inductionHypothesis
  | case13 taken inTexts switch rest flag value =>
      rw [takeAll.eq_def]
      simp only [flag, Bool.false_eq_true, if_false]
      rfl

/-- With `--json` in front, the same is asked for, as data. -/
theorem parse_json (arguments : List String) :
    parse ("--json" :: arguments) = Options.asData <$> parse arguments := by
  have alone : classify "--json".toList = .ok (.switch .json none) := rfl
  have unmarked : "--json".toList ≠ "--".toList := by decide
  rw [parse, List.map_cons, classifyAll, if_neg unmarked, alone, parse]
  cases classifyAll (arguments.map String.toList) with
  | error refusal => rfl
  | ok others =>
      have taken : takeAll {} false (.switch .json none :: others) =
          Taken.asData <$> takeAll {} false others := by
        rw [takeAll.eq_def]
        exact takeAll_asData {} false others
      change takeAll {} false (.switch .json none :: others) >>= _ =
        Options.asData <$> (takeAll {} false others >>= _)
      rw [taken]
      cases takeAll {} false others with
      | error refusal => rfl
      | ok last =>
          change (if last.sourcesTaken && !last.extras then _ else _) =
            Options.asData <$> if last.sourcesTaken && !last.extras then _ else _
          split <;> rfl

end LoanCheck.CommandLine
