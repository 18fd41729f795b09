import ExtensionSdkMongodb.Library.Machine
import ExtensionSdkMongodb.Sdk.Nodes

/-!
# Expanded-array containers

The AST nodes of an expansion travel to the host in a container: `ExpandedSingle` for the stage
itself, `ExpandedMulti` for a pipeline. The host asks for the size, transfers the nodes into an
array of its own and destroys the container, in any order and any number of times up to the
destruction.

A container forgets nothing when it is transferred: it sets a flag, which only its destruction
looks at. So it gives its nodes away again at every transfer of the right size, and
`operateArray_keeps_iff` says that this is the only way nodes get a second owner.
-/

set_option autoImplicit false

namespace ExtensionSdkMongodb

/-! ## Containers -/

/-- `ExpandedSingle` and `ExpandedMulti`, on nodes known by identities `ν`. -/
inductive Expanded (ν : Type) where
  | single (ast : ν) (transferred : Bool)
  | multi (asts : List ν) (transferred : Bool)

/-- `expanded_single`. -/
def expandedSingle {ν : Type} (ast : ν) : Expanded ν := .single ast false

/-- `expanded_multi`. -/
def expandedMulti {ν : Type} (asts : List ν) : Expanded ν := .multi asts false

namespace Expanded

variable {ν : Type}

/-- The nodes of a container, in the order of the expansion. -/
def asts : Expanded ν → List ν
  | .single ast _ => [ast]
  | .multi asts _ => asts

def transferred : Expanded ν → Bool
  | .single _ transferred | .multi _ transferred => transferred

/-- `exp_size` and `exp_multi_size`. -/
def size : Expanded ν → ℕ
  | .single .. => 1
  | .multi asts _ => asts.length

/-- The container after a transfer. -/
def setTransferred : Expanded ν → Expanded ν
  | .single ast _ => .single ast true
  | .multi asts _ => .multi asts true

/-- The nodes that `exp_destroy` and `exp_multi_destroy` destroy. -/
def destroys : Expanded ν → List ν
  | .single ast transferred => if transferred then [] else [ast]
  | .multi asts transferred => if transferred then [] else asts

/-- A container as an expansion makes it: with nodes, all different, and all its own. -/
structure Fresh (c : Expanded ν) : Prop where
  kept : c.transferred = false
  distinct : c.asts.Nodup
  nonempty : c.asts ≠ []

@[simp] theorem asts_setTransferred (c : Expanded ν) : c.setTransferred.asts = c.asts := by
  cases c <;> rfl

@[simp] theorem transferred_setTransferred (c : Expanded ν) :
    c.setTransferred.transferred = true := by
  cases c <;> rfl

theorem destroys_eq (c : Expanded ν) : c.destroys = if c.transferred then [] else c.asts := by
  cases c <;> rfl

end Expanded

/-! ## The host's calls -/

/-- A call of the host on a container. -/
inductive ArrayCall where
  | size
  /-- With an array of this many elements. -/
  | transfer (n : ℕ)
  | destroy

/-- What a call returns. -/
inductive ArrayReply (ν : Type) where
  | size (n : ℕ)
  /-- A status, and the nodes written to the array. -/
  | transfer (status : Status) (given : List ν)
  | done
  /-- The container was destroyed before, so the call is not one the host can make. -/
  | dangling

/-- A container with what became of its nodes: those given to the host's arrays and those
destroyed, in order. -/
structure ArrayState (ν : Type) where
  container : Option (Expanded ν)
  given : List ν
  destroyed : List ν

/-- A container just handed to the host. -/
def ArrayState.handed {ν : Type} (c : Expanded ν) : ArrayState ν := ⟨some c, [], []⟩

section Operate

variable {ε ν : Type} (r : Reporting ε)

/-- `exp_transfer` and `exp_multi_transfer`: the status, the nodes written and the container. -/
def Reporting.expTransfer (c : Expanded ν) (n : ℕ) : Status × List ν × Expanded ν :=
  if n ≠ c.size then (r.status (r.badValue "expanded array size mismatch"), [], c)
  else (statusOk, c.asts, c.setTransferred)

/-- A container as a machine over the host's calls. -/
def Reporting.operateArray : Machine (ArrayState ν) ArrayCall (ArrayReply ν) :=
  fun s call =>
    match s.container with
    | none => (.dangling, s)
    | some c =>
      match call with
      | .size => (.size c.size, s)
      | .transfer n =>
        let (status, written, c) := r.expTransfer c n
        (.transfer status written, { s with container := some c, given := s.given ++ written })
      | .destroy => (.done, { s with container := none, destroyed := s.destroyed ++ c.destroys })

end Operate

/-! ## Owners of nodes -/

section Owners

variable {ε ν : Type} (r : Reporting ε)

/-- Of a container's nodes, each was given away at most once and in their order. While the
container lives none is destroyed, and afterwards those are that were not given away, once. -/
structure ArrayState.Accounted (nodes : List ν) (s : ArrayState ν) : Prop where
  given : s.given.Sublist nodes
  living : s.container ≠ none → s.destroyed = []
  destroyed : s.container = none →
    s.destroyed.Nodup ∧ ∀ node, node ∈ s.destroyed ↔ node ∈ nodes ∧ node ∉ s.given

/-- What a call of a machine keeps: a rejected transfer gives nothing away and changes nothing, and
the nodes are accounted for after the call. -/
def KeepsNodes (m : Machine (ArrayState ν) ArrayCall (ArrayReply ν)) (nodes : List ν)
    (s : ArrayState ν) (call : ArrayCall) : Prop :=
  (∀ status given, (m s call).1 = .transfer status given → status.isOk = false →
    given = [] ∧ (m s call).2 = s) ∧ (m s call).2.Accounted nodes

/-- A transfer into an array of the right size, of a container that was transferred before. -/
def ArrayState.Repeats (s : ArrayState ν) (call : ArrayCall) : Prop :=
  ∃ c, s.container = some c ∧ c.transferred = true ∧ call = .transfer c.size

/-- The states before any repeated transfer: all nodes are in the container or with the host. -/
inductive ArrayState.Whole (nodes : List ν) : ArrayState ν → Prop where
  | living (c : Expanded ν) (asts : c.asts = nodes) :
      Whole nodes ⟨some c, if c.transferred then nodes else [], []⟩
  | gone (transferred : Bool) :
      Whole nodes ⟨none, if transferred then nodes else [], if transferred then [] else nodes⟩

theorem ArrayState.Whole.accounted {nodes : List ν} (distinct : nodes.Nodup) {s : ArrayState ν}
    (whole : s.Whole nodes) : s.Accounted nodes := by
  cases whole with
  | living c asts =>
      refine ⟨?_, fun _ => rfl, fun gone => by cases gone⟩
      cases c.transferred with
      | true => exact List.Sublist.refl nodes
      | false => exact List.nil_sublist nodes
  | gone transferred =>
      refine ⟨?_, fun living => absurd rfl living, fun _ => ?_⟩
      · cases transferred with
        | true => exact List.Sublist.refl nodes
        | false => exact List.nil_sublist nodes
      · cases transferred with
        | true => simp
        | false => simp [distinct]

theorem ArrayState.whole_of_fresh {c : Expanded ν} (fresh : c.Fresh) :
    (ArrayState.handed c).Whole c.asts := by
  have start := ArrayState.Whole.living c rfl
  rw [fresh.kept] at start
  exact start

/-- A call that repeats no transfer keeps the nodes whole. -/
theorem whole_step {nodes : List ν} {s : ArrayState ν} (whole : s.Whole nodes) {call : ArrayCall}
    (once : ¬ s.Repeats call) : (r.operateArray s call).2.Whole nodes := by
  cases whole with
  | gone transferred => exact .gone transferred
  | living c asts =>
      cases call with
      | size => exact .living c asts
      | destroy =>
          have gone := @ArrayState.Whole.gone _ nodes c.transferred
          simpa only [Reporting.operateArray, Expanded.destroys_eq, asts,
            List.nil_append] using gone
      | transfer n =>
          by_cases fits : n = c.size
          · subst fits
            cases kept : c.transferred with
            | true => exact absurd ⟨c, rfl, kept, rfl⟩ once
            | false =>
                have given := @ArrayState.Whole.living _ nodes c.setTransferred
                  (by rw [Expanded.asts_setTransferred, asts])
                simpa [Reporting.operateArray, Reporting.expTransfer, asts] using given
          · have same := @ArrayState.Whole.living _ nodes c asts
            simpa [Reporting.operateArray, Reporting.expTransfer, fits] using same

/-- A rejected transfer is one of another size, and changes nothing. -/
theorem rejected_transfer {s : ArrayState ν} {call : ArrayCall} {status : Status} {given : List ν}
    (reply : (r.operateArray s call).1 = .transfer status given) (fails : status.isOk = false) :
    given = [] ∧ (r.operateArray s call).2 = s := by
  obtain ⟨container, handed, destroyed⟩ := s
  cases container with
  | none => cases reply
  | some c =>
      cases call with
      | size => cases reply
      | destroy => cases reply
      | transfer n =>
          by_cases fits : n = c.size
          · simp only [Reporting.operateArray, Reporting.expTransfer, fits, ne_eq,
              not_true_eq_false, if_false, ArrayReply.transfer.injEq] at reply
            rw [← reply.1] at fails
            simp at fails
          · simp only [Reporting.operateArray, Reporting.expTransfer, ne_eq, fits,
              not_false_eq_true, if_true, ArrayReply.transfer.injEq] at reply
            simp [Reporting.operateArray, Reporting.expTransfer, fits, ← reply.2]

/-- A repeated transfer gives every node away twice. -/
theorem not_accounted_of_repeats {nodes : List ν} (nonempty : nodes ≠ []) {s : ArrayState ν}
    (whole : s.Whole nodes) {call : ArrayCall} (again : s.Repeats call) :
    ¬ (r.operateArray s call).2.Accounted nodes := by
  obtain ⟨c, held, transferred, rfl⟩ := again
  cases whole with
  | gone _ => cases held
  | living c' asts =>
      cases held
      intro accounted
      have given := accounted.given.length_le
      simp only [Reporting.operateArray, Reporting.expTransfer, transferred, asts, ne_eq,
        not_true_eq_false, if_false, if_true, List.length_append] at given
      have positive := List.length_pos_iff.mpr nonempty
      omega

/-- **A container keeps its nodes accounted for in exactly the runs that repeat no transfer.** -/
theorem operateArray_keeps_iff {c : Expanded ν} (fresh : c.Fresh) (calls : List ArrayCall) :
    r.operateArray.Along (KeepsNodes r.operateArray c.asts) (.handed c) calls ↔
      r.operateArray.Along (fun s call => ¬ s.Repeats call) (.handed c) calls := by
  have same : ∀ s call, s.Whole c.asts →
      (KeepsNodes r.operateArray c.asts s call ↔ ¬ s.Repeats call) := by
    intro s call whole
    constructor
    · intro keeps again
      exact not_accounted_of_repeats r fresh.nonempty whole again keeps.2
    · intro once
      exact ⟨fun status given reply fails => rejected_transfer r reply fails,
        (whole_step r whole once).accounted fresh.distinct⟩
  exact Machine.along_congr_of_invariant same (fun s call whole once => whole_step r whole once)
    (ArrayState.whole_of_fresh fresh) calls

end Owners

end ExtensionSdkMongodb
