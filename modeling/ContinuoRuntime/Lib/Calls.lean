/-
  Programs over the list of their calls.

  * `record`: a call, which raises what is answered to the calls before it;
  * `Triple.record`: its rule.
-/
import ContinuoRuntime.Lib.Program

namespace ContinuoRuntime
namespace Prog
variable {ε E : Type}

/-- A call, and the event that says how it ended. -/
def record (raises : List E → Option ε) (event : Option ε → E) : Prog ε (List E) Unit := fun events =>
  match raises events with
  | none => (.ok (), events ++ [event none])
  | some e => (.error e, events ++ [event (some e)])

theorem Triple.record {raises : List E → Option ε} {event : Option ε → E} {P Q : List E → Prop}
    {R : ε → List E → Prop} (hok : ∀ events, P events → Q (events ++ [event none]))
    (herror : ∀ events e, P events → raises events = some e → R e (events ++ [event (some e)])) :
    Triple P (Prog.record raises event) (fun _ => Q) R := by
  intro events h
  unfold Prog.record
  cases hraises : raises events with
  | none =>
    refine ⟨fun a s hs => ?_, fun e s hs => (by cases hs)⟩
    cases hs
    exact hok events h
  | some e =>
    refine ⟨fun a s hs => (by cases hs), fun e' s hs => ?_⟩
    cases hs
    exact herror events e h hraises

end Prog
end ContinuoRuntime
