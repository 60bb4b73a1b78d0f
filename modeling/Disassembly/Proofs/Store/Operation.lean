import Disassembly.Store.Edit

/-!
Running operations. A successful first part hands its result and its store on; what every part
keeps, the whole keeps, also when a part fails.
-/
namespace Disassembly

section Running

variable {σ α β : Type}

theorem bind_of_ok {act : EStateM Fault σ α} {next : α → EStateM Fault σ β} {s t : σ} {a : α}
    (h : act s = .ok a t) : (act >>= next) s = next a t := by
  change EStateM.bind act next s = next a t
  simp only [EStateM.bind, h]

theorem bind_of_error {act : EStateM Fault σ α} {next : α → EStateM Fault σ β} {s t : σ}
    {e : Fault} (h : act s = .error e t) : (act >>= next) s = .error e t := by
  change EStateM.bind act next s = .error e t
  simp only [EStateM.bind, h]

theorem get_run (s : σ) : (get : EStateM Fault σ σ) s = .ok s s := rfl

/-- The state in which an operation ends, by success or by failure. -/
def finalState : EStateM.Result Fault σ α → σ
  | .ok _ s => s
  | .error _ s => s

/-- The property survives the operation, whether or not it fails. -/
def Keeps (I : σ → Prop) (act : EStateM Fault σ α) : Prop := ∀ s, I s → I (finalState (act s))

variable {I : σ → Prop}

theorem Keeps.pure (a : α) : Keeps I (Pure.pure a : EStateM Fault σ α) := fun _ h => h

theorem Keeps.get : Keeps I (MonadState.get : EStateM Fault σ σ) := fun _ h => h

theorem Keeps.throw (e : Fault) : Keeps I (MonadExcept.throw e : EStateM Fault σ α) :=
  fun _ h => h

theorem Keeps.modify {f : σ → σ} (hf : ∀ s, I s → I (f s)) :
    Keeps I (modify f : EStateM Fault σ Unit) := hf

theorem Keeps.bind {act : EStateM Fault σ α} {next : α → EStateM Fault σ β} (ha : Keeps I act)
    (hn : ∀ a, Keeps I (next a)) : Keeps I (act >>= next) := by
  intro s hs
  have h := ha s hs
  change I (finalState (EStateM.bind act next s))
  unfold EStateM.bind
  cases hr : act s with
  | ok a t =>
    rw [hr] at h
    exact hn a t h
  | error e t =>
    rw [hr] at h
    exact h

theorem Keeps.ite {p : Prop} [Decidable p] {act other : EStateM Fault σ α} (ha : Keeps I act)
    (ho : Keeps I other) : Keeps I (if p then act else other) := by
  split
  · exact ha
  · exact ho

end Running

namespace StoreM

variable {α : Type} {s : Store} {offset : Int}

theorem read_of_ok {query : Store → Except Fault α} {a : α} (h : query s = .ok a) :
    read query s = .ok a s := by
  simp only [read, h]

theorem read_of_error {query : Store → Except Fault α} {e : Fault} (h : query s = .error e) :
    read query s = .error e s := by
  simp only [read, h]

theorem keeps_read {I : Store → Prop} (query : Store → Except Fault α) :
    Keeps I (read query) := by
  intro s hs
  unfold read
  cases query s with
  | ok a => exact hs
  | error e => exact hs

/-- Inside the image an edit succeeds. -/
theorem edit_of_contains (h : s.Contains offset) (f : Cell → Cell) :
    edit offset f s = .ok () (s.editRun offset 1 f) :=
  bind_of_ok (read_of_ok (Store.check_one h))

end StoreM

end Disassembly
