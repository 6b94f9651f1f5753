import FreeSpace.Event

/-!
# Actions

An action works on a state and ends with an answer or a failure.  It leaves the state in which it
ended and the events that it reported on the way, also when it fails: what an action did before it
failed is done.  The lemmas say what each way of building an action yields when it is run.
-/

namespace FreeSpace

/-- How a run of an action ended. -/
structure Outcome (σ α : Type) where
  result : Result α
  /-- The state at the end, also if the end is a failure. -/
  state : σ
  /-- What was reported, in order. -/
  events : List Event

/-- A piece of work on a state. -/
structure Action (σ α : Type) where
  run : σ → Outcome σ α

namespace Action

variable {σ τ α β : Type}

/-- A failure skips the rest and keeps the state and the events so far. -/
instance : Monad (Action σ) where
  pure a := ⟨fun s => ⟨.ok a, s, []⟩⟩
  bind x f := ⟨fun s =>
    match x.run s with
    | ⟨.ok a, t, es⟩ =>
        match (f a).run t with
        | ⟨r, u, fs⟩ => ⟨r, u, es ++ fs⟩
    | ⟨.error e, t, es⟩ => ⟨.error e, t, es⟩⟩

/-- Answers from the state alone, which stays as it is. -/
def view (f : σ → Result α) : Action σ α where
  run s := ⟨f s, s, []⟩

/-- A part of the state. -/
def get (f : σ → α) : Action σ α :=
  view fun s => .ok (f s)

/-- Takes over an answer or a failure found elsewhere. -/
def lift (r : Result α) : Action σ α :=
  view fun _ => r

def refuse (e : Error) : Action σ α :=
  lift (.error (.refused e))

def modify (f : σ → σ) : Action σ Unit where
  run s := ⟨.ok (), f s, []⟩

/-- Reports the event that the state calls for. -/
def report (f : σ → Event) : Action σ Unit where
  run s := ⟨.ok (), s, [f s]⟩

/-- The action on a state of its own; its answer is the state that it leaves. -/
def build (a : Action σ Unit) (s : σ) : Action τ σ where
  run t :=
    match a.run s with
    | ⟨.ok (), s', es⟩ => ⟨.ok s', t, es⟩
    | ⟨.error e, _, es⟩ => ⟨.error e, t, es⟩

/-- The action on a state of its own, which is given up afterwards. -/
def runOn (a : Action σ α) (s : σ) : Action τ α where
  run t :=
    match a.run s with
    | ⟨r, _, es⟩ => ⟨r, t, es⟩

@[simp] theorem run_pure (a : α) (s : σ) : (pure a : Action σ α).run s = ⟨.ok a, s, []⟩ := rfl

theorem run_bind (x : Action σ α) (f : α → Action σ β) (s : σ) :
    (x >>= f).run s =
      match (x.run s).result with
      | .ok a =>
          let o := (f a).run (x.run s).state
          ⟨o.result, o.state, (x.run s).events ++ o.events⟩
      | .error e => ⟨.error e, (x.run s).state, (x.run s).events⟩ := by
  simp only [Bind.bind]
  rcases x.run s with ⟨_ | _, _, _⟩ <;> rfl

/-- After an answer the rest runs in the state that it left. -/
theorem run_bind_ok {x : Action σ α} {s t : σ} {a : α} {es : List Event}
    (h : x.run s = ⟨.ok a, t, es⟩) (f : α → Action σ β) :
    (x >>= f).run s =
      ⟨((f a).run t).result, ((f a).run t).state, es ++ ((f a).run t).events⟩ := by
  rw [run_bind, h]

/-- An answer without events leaves nothing but its state to the rest. -/
theorem run_bind_silent {x : Action σ α} {s t : σ} {a : α} (h : x.run s = ⟨.ok a, t, []⟩)
    (f : α → Action σ β) : (x >>= f).run s = (f a).run t :=
  run_bind_ok h f

/-- After a failure the rest does not run. -/
theorem run_bind_error {x : Action σ α} {s t : σ} {e : Failure} {es : List Event}
    (h : x.run s = ⟨.error e, t, es⟩) (f : α → Action σ β) :
    (x >>= f).run s = ⟨.error e, t, es⟩ := by
  rw [run_bind, h]

@[simp] theorem run_view (f : σ → Result α) (s : σ) : (view f).run s = ⟨f s, s, []⟩ := rfl

@[simp] theorem run_get (f : σ → α) (s : σ) : (get f).run s = ⟨.ok (f s), s, []⟩ := rfl

@[simp] theorem run_lift (r : Result α) (s : σ) : (lift r).run s = ⟨r, s, []⟩ := rfl

@[simp] theorem run_refuse (e : Error) (s : σ) :
    (refuse e : Action σ α).run s = ⟨.error (.refused e), s, []⟩ :=
  rfl

@[simp] theorem run_report (f : σ → Event) (s : σ) :
    (report f).run s = ⟨.ok (), s, [f s]⟩ :=
  rfl

theorem run_bind_view {f : σ → Result α} {s : σ} {a : α} (h : f s = .ok a)
    (g : α → Action σ β) : (view f >>= g).run s = (g a).run s := by
  apply run_bind_silent
  rw [run_view, h]

theorem run_bind_view_error {f : σ → Result α} {s : σ} {e : Failure} (h : f s = .error e)
    (g : α → Action σ β) : (view f >>= g).run s = ⟨.error e, s, []⟩ := by
  apply run_bind_error
  rw [run_view, h]

theorem run_runOn (a : Action σ α) (s : σ) (t : τ) :
    (a.runOn s).run t = ⟨(a.run s).result, t, (a.run s).events⟩ := rfl

theorem result_build (a : Action σ Unit) (s : σ) (t : τ) :
    ((a.build s).run t).result = (a.run s).result.map fun _ => (a.run s).state := by
  unfold build
  rcases a.run s with ⟨_ | _, _, _⟩ <;> rfl

end Action

end FreeSpace
