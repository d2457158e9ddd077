import TokenMacros.Host.FileSystem
import TokenMacros.Proofs.PartialResults

/-!
# Runs over a state

What can be said of every run of an operation that starts in a state of some
kind: which answers it gives, which states it leaves, and, if it may be stopped,
for which reasons.  What is said of operations in a row adds up.
-/

namespace TokenMacros

variable {σ α β : Type}

/-- What a run from a state answers or is stopped by, and the state that it
leaves. -/
def Run.result (run : Run (StateM σ) α) (before : σ) : Except Stop α × σ :=
  (StateT.run run.run before).run

namespace Run

theorem result_pure (answer : α) (before : σ) :
    result (pure answer) before = (.ok answer, before) := rfl

theorem result_bind (run : Run (StateM σ) α) (next : α → Run (StateM σ) β)
    (before : σ) :
    result (run >>= next) before =
      match result run before with
      | (.ok answer, between) => result (next answer) between
      | (.error stop, between) => (.error stop, between) := by
  rw [result, ExceptT.run_bind, StateT.run_bind, Id.run_bind]
  rw [result]
  rcases (StateT.run run.run before).run with ⟨_ | _, between⟩
  · rfl
  · rfl

theorem result_adapt (word : Stop → Stop) (run : Run (StateM σ) α)
    (before : σ) :
    result (ExceptT.adapt word run) before =
      ((result run before).1.mapError word, (result run before).2) := rfl

end Run

/-- Started in a state with the property `pre`, the operation gives an answer and
leaves a state that `post` relates. -/
def Delivers (pre : σ → Prop) (operation : StateM σ α) (post : α → σ → Prop) :
    Prop :=
  ∀ before answer after, pre before →
    (StateT.run operation before).run = (answer, after) → post answer after

/-- Started in a state with the property `pre`, the run answers as `answers` says
or is stopped for one of the reasons `stops`. -/
def Serves (pre : σ → Prop) (run : Run (StateM σ) α) (answers : α → σ → Prop)
    (stops : Stop → Prop) : Prop :=
  Delivers pre run.run fun result state => Yields (answers · state) stops result

namespace Delivers

variable {pre pre' : σ → Prop} {mid mid' : α → σ → Prop} {post : β → σ → Prop}
  {operation : StateM σ α} {next : α → StateM σ β}

theorem pure {answer : β} (given : ∀ state, pre state → post answer state) :
    Delivers pre (Pure.pure answer) post := by
  intro before answer' after start ended
  cases ended
  exact given _ start

theorem bind (first : Delivers pre operation mid)
    (second : ∀ answer, Delivers (mid answer) (next answer) post) :
    Delivers pre (operation >>= next) post := by
  intro before answer after start ended
  rw [StateT.run_bind, Id.run_bind] at ended
  rcases ran : (StateT.run operation before).run with ⟨between, middle⟩
  rw [ran] at ended
  exact second between middle answer after (first before between middle start ran)
    ended

theorem mono (delivers : Delivers pre operation mid)
    (start : ∀ state, pre' state → pre state)
    (given : ∀ answer state, mid answer state → mid' answer state) :
    Delivers pre' operation mid' :=
  fun before answer after started ended =>
    given _ _ (delivers before answer after (start _ started) ended)

end Delivers

namespace Serves

variable {pre pre' : σ → Prop} {mid mid' : α → σ → Prop} {post : β → σ → Prop}
  {stops stops' : Stop → Prop} {run : Run (StateM σ) α}
  {next : α → Run (StateM σ) β}

theorem pure {answer : β} (given : ∀ state, pre state → post answer state) :
    Serves pre (Pure.pure answer) post stops :=
  Delivers.pure given

theorem throw {stop : Stop} (allowed : stops stop) :
    Serves pre (MonadExcept.throw stop) post stops :=
  Delivers.pure fun _ _ => allowed

theorem bind (first : Serves pre run mid stops)
    (second : ∀ answer, Serves (mid answer) (next answer) post stops) :
    Serves pre (run >>= next) post stops := by
  unfold Serves
  rw [ExceptT.run_bind]
  refine Delivers.bind first ?_
  intro result
  cases result with
  | ok answer => exact second answer
  | error stop => exact Delivers.pure fun _ allowed => allowed

theorem mono (serves : Serves pre run mid stops)
    (start : ∀ state, pre' state → pre state)
    (given : ∀ answer state, mid answer state → mid' answer state)
    (allowed : ∀ stop, stops stop → stops' stop) :
    Serves pre' run mid' stops' := by
  refine Delivers.mono serves start ?_
  intro result state ended
  exact ended.mono (fun answer => given answer state) allowed

end Serves

end TokenMacros
