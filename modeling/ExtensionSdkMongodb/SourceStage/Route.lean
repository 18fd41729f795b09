import ExtensionSdkMongodb.SourceStage.Exec

/-!
# What a call of `get_next` can do

A call is refused when the properties hook panics, forwards an upstream, generates, or, for a
passthrough that lost its upstream, does nothing. The route is a function of the state and the
frame, and `execGetNext_eq` gives the reply and the next state of each route.
-/

set_option autoImplicit false

namespace ExtensionSdkMongodb.SourceStage

variable {ω : Type} (codec : BsonCodec) (ops : SourceOps ω)

/-- The route of a call. A generating call starts from slots the upstream may have written,
after the number of answers taken from upstream. -/
inductive Route where
  | refused
  | silent
  | forward (up : Upstream)
  | generate (res : GetNextResult) (pulls : ℕ)

def route (s : Stage ω) (frame : Frame) : Route :=
  match s.exec.mode with
  | .generator => .generate frame.result s.pulls
  | .passthrough =>
    match s.exec.source with
    | some up => .forward up
    | none => .silent
  | .init =>
    match requiresInput ops with
    | none => .refused
    | some false => .generate frame.result s.pulls
    | some true =>
      match s.exec.source with
      | none => .generate frame.result s.pulls
      | some up =>
        match up s.pulls with
        | .failure .. => .forward up
        | .success _ _ res _ =>
          if res.code = .eof ∧ s.exec.sawUpstreamAdvanced = false then .generate res (s.pulls + 1)
          else .forward up

/-- The stage after forwarding: the first row of an undecided stage makes it a passthrough. -/
def Stage.forwarded (s : Stage ω) (up : Upstream) : Stage ω :=
  if s.exec.mode = .init ∧ (up s.pulls).Advances then
    { s.pulled with exec.sawUpstreamAdvanced := true, exec.mode := .passthrough }
  else s.pulled

/-- The stage on which a generating call runs its closure. -/
def Stage.generating (s : Stage ω) (pulls : ℕ) : Stage ω :=
  { s with exec.mode := .generator, pulls }

section Forwarded

variable (s : Stage ω) (up : Upstream)

@[simp] theorem pulls_pulled : s.pulled.pulls = s.pulls + 1 := rfl

@[simp] theorem pulls_forwarded : (s.forwarded up).pulls = s.pulls + 1 := by
  unfold Stage.forwarded
  split <;> rfl

@[simp] theorem calls_forwarded : (s.forwarded up).calls = s.calls := by
  unfold Stage.forwarded
  split <;> rfl

@[simp] theorem heap_forwarded : (s.forwarded up).heap = s.heap := by
  unfold Stage.forwarded
  split <;> rfl

@[simp] theorem state_forwarded : (s.forwarded up).exec.state = s.exec.state := by
  unfold Stage.forwarded
  split <;> rfl

@[simp] theorem generatorDone_forwarded :
    (s.forwarded up).exec.generatorDone = s.exec.generatorDone := by
  unfold Stage.forwarded
  split <;> rfl

end Forwarded

/-- **A call does what its route says.** -/
theorem execGetNext_eq (s : Stage ω) (frame : Frame) :
    execGetNext codec ops s frame =
      match route ops s frame with
      | .refused => (⟨propertiesPanic, frame.result⟩, s)
      | .silent => (⟨statusOk, frame.result⟩, s)
      | .forward up => ((up s.pulls).reply frame.result, s.forwarded up)
      | .generate res pulls =>
        getNextGenerator codec ops frame.queryCtx res (s.generating pulls) := by
  obtain ⟨exec, hooks, pulls, calls, heap⟩ := s
  obtain ⟨args, catalog, source, state, done, mode, saw, metrics⟩ := exec
  cases mode with
  | generator => rfl
  | passthrough => cases source <;> rfl
  | init =>
    rcases required : requiresInput ops with _ | _ | _
    · simp [execGetNext, route, propertiesGate, required]
    · simp [execGetNext, route, propertiesGate, required, Stage.setMode, Stage.generating]
    · cases source with
      | none =>
        simp [execGetNext, route, propertiesGate, required, Stage.setMode, Stage.generating]
      | some up =>
        rcases answer : up pulls with ⟨status, okay, res, _⟩ | ⟨status, bad, written⟩
        · cases code : res.code with
          | advanced =>
            simp [execGetNext, route, propertiesGate, required, answer, code, Stage.forwarded,
              Stage.pulled, Pulled.reply, Pulled.Advances]
          | eof =>
            cases saw <;>
              simp [execGetNext, route, propertiesGate, required, answer, code, Stage.forwarded,
                Stage.pulled, Stage.setMode, Stage.generating, Pulled.reply, Pulled.Advances]
          | pauseExecution =>
            simp [execGetNext, route, propertiesGate, required, answer, code, Stage.forwarded,
              Stage.pulled, Pulled.reply, Pulled.Advances]
        · simp [execGetNext, route, propertiesGate, required, answer, Stage.forwarded,
            Stage.pulled, Pulled.reply, Pulled.Advances]

end ExtensionSdkMongodb.SourceStage
