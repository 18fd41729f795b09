import ExtensionSdkMongodb.DistributedPlan.Ownership

/-!
# Plans that are built

A plan is built of a suffix when every document of the suffix is a single operator and the host
makes parse nodes of all of them and, where the shards' input is suppressed, of the constant-false
match (`buildMerger_ok_iff`). The shards of the plan are that match, or absent
(`buildMerger_shards`).
-/

set_option autoImplicit false

namespace ExtensionSdkMongodb.DistributedPlan

/-- The host makes parse nodes of these documents, in order. -/
def Accepts (host : Host) (documents : List Document) : Prop :=
  ∀ i document, documents[i]? = some document → host i document = .ok ()

theorem accepts_append (host : Host) (first second : List Document) :
    Accepts host (first ++ second) ↔
      Accepts host first ∧
        ∀ i document, second[i]? = some document → host (first.length + i) document = .ok () := by
  constructor
  · intro accepts
    refine ⟨?_, ?_⟩
    · intro i document found
      have lt : i < first.length := (List.getElem?_eq_some_iff.mp found).1
      exact accepts i document (by rw [List.getElem?_append_left lt, found])
    · intro i document found
      apply accepts
      rw [List.getElem?_append_right (Nat.le_add_right _ _), Nat.add_sub_cancel_left, found]
  · rintro ⟨left, right⟩ i document found
    rcases Nat.lt_or_ge i first.length with lt | ge
    · rw [List.getElem?_append_left lt] at found
      exact left i document found
    · rw [List.getElem?_append_right ge] at found
      have accepted := right (i - first.length) document found
      rwa [Nat.add_sub_cancel' ge] at accepted

/-- The loop succeeds for single operators that the host accepts, and pushes on no node else. -/
theorem pushSuffix_ok_iff (host : Host) (stages : List OwnedStage) (suffix : List Document)
    (w : World) :
    (∃ pushed w', pushSuffix host stages suffix w = (.ok pushed, w')) ↔
      (∀ spec ∈ suffix, singleOperator spec = true) ∧
        ∀ i spec, suffix[i]? = some spec → host (w.specs.length + i) spec = .ok () := by
  induction suffix generalizing stages w with
  | nil => simp [pushSuffix]
  | cons spec suffix ih =>
      unfold pushSuffix createHostParseNode
      by_cases single : singleOperator spec = true
      · rw [if_pos single]
        cases answer : host w.specs.length spec with
        | error e =>
            constructor
            · rintro ⟨pushed, w', fails⟩
              cases fails
            · rintro ⟨-, accepts⟩
              have accepted := accepts 0 spec rfl
              rw [Nat.add_zero, answer] at accepted
              cases accepted
        | ok _ =>
            rw [ih, List.forall_mem_cons, and_iff_right single]
            apply and_congr_right
            intro _
            have length : (w.specs ++ [spec]).length = w.specs.length + 1 := by simp
            constructor
            · intro accepts i document found
              cases i with
              | zero =>
                  cases found
                  exact answer
              | succ i =>
                  have accepted := accepts i document found
                  rwa [length, Nat.add_assoc, Nat.add_comm 1 i] at accepted
            · intro accepts i document found
              have accepted := accepts (i + 1) document found
              rwa [length, Nat.add_assoc, Nat.add_comm 1 i]
      · rw [if_neg single]
        constructor
        · rintro ⟨pushed, w', fails⟩
          cases fails
        · rintro ⟨singles, -⟩
          exact absurd (singles spec List.mem_cons_self) single

/-- What the host has to accept for a plan: the suffix, and the match of suppressed shards. -/
def requested (suffix : List Document) (suppressInput : Bool) : List Document :=
  suffix ++ if suppressInput then [constantFalse] else []

/-- **A plan is built of single operators that the host accepts, with the match of suppressed
shards.** -/
theorem buildMerger_ok_iff (host : Host) (suffix : List Document) (suppressInput : Bool) :
    (∃ p w, buildMerger host (some sourceNode) suffix suppressInput .start = (.ok p, w)) ↔
      (∀ spec ∈ suffix, singleOperator spec = true) ∧
        Accepts host (requested suffix suppressInput) := by
  have pushes := pushSuffix_ok_iff host [some sourceNode] suffix .start
  have empty : World.start.specs.length = 0 := rfl
  simp only [empty, Nat.zero_add] at pushes
  unfold buildMerger requested
  rcases pushed : pushSuffix host [some sourceNode] suffix .start with ⟨e | stages, w⟩
  · have fails : ¬ ((∀ spec ∈ suffix, singleOperator spec = true) ∧ Accepts host suffix) := by
      intro accepted
      obtain ⟨_, _, built⟩ := pushes.mpr accepted
      rw [pushed] at built
      cases built
    constructor
    · rintro ⟨p, w', built⟩
      cases built
    · rintro ⟨singles, accepts⟩
      exact absurd ⟨singles, ((accepts_append host suffix _).mp accepts).1⟩ fails
  · obtain ⟨singles, accepts⟩ := pushes.mp ⟨_, _, pushed⟩
    have specs : w.specs = suffix := by
      obtain ⟨filled, -⟩ := pushSuffix_spec host suffix .start
      exact (filled stages w pushed).2.1
    cases suppressInput with
    | false =>
        have whole : suffix ++ (if false = true then [constantFalse] else []) = suffix := by simp
        rw [whole]
        exact iff_of_true ⟨_, _, rfl⟩ ⟨singles, accepts⟩
    | true =>
        simp only [if_true, createHostParseNode, specs]
        rw [accepts_append]
        cases answer : host suffix.length constantFalse with
        | error e =>
            constructor
            · rintro ⟨p, w', built⟩
              cases built
            · rintro ⟨-, -, last⟩
              have accepted := last 0 constantFalse rfl
              rw [Nat.add_zero, answer] at accepted
              cases accepted
        | ok _ =>
            refine iff_of_true ⟨_, _, rfl⟩ ⟨singles, accepts, ?_⟩
            intro i document found
            obtain ⟨rfl, rfl⟩ : i = 0 ∧ constantFalse = document := by
              cases i with
              | zero => exact ⟨rfl, Option.some.inj found⟩
              | succ i => cases found
            exact answer

/-- The shards of a plan are a constant-false match where input is suppressed, and else none. -/
theorem buildMerger_shards {host : Host} {suffix : List Document} {suppressInput : Bool} {p : Plan}
    {w : World}
    (built : buildMerger host (some sourceNode) suffix suppressInput .start = (.ok p, w)) :
    p.shards = (if suppressInput then some ⟨some [some (parseNode suffix.length)]⟩ else none) ∧
      w.specs = requested suffix suppressInput := by
  have specs := ((buildMerger_spec host suffix suppressInput).1 p w built).2.2.1
  refine ⟨?_, specs⟩
  unfold buildMerger at built
  rcases pushed : pushSuffix host [some sourceNode] suffix .start with ⟨e | stages, w'⟩
  · rw [pushed] at built
    cases built
  · have length : w'.specs = suffix := by
      obtain ⟨filled, -⟩ := pushSuffix_spec host suffix .start
      exact (filled stages w' pushed).2.1
    rw [pushed] at built
    cases suppressInput with
    | false =>
        cases built
        rfl
    | true =>
        simp only [if_true, createHostParseNode, length] at built
        cases answer : host suffix.length constantFalse with
        | error e =>
            rw [answer] at built
            cases built
        | ok _ =>
            rw [answer] at built
            cases built
            rfl

end ExtensionSdkMongodb.DistributedPlan
