import ExtensionSdkMongodb.OpenSearch.FetchContract

/-!
# The rows of a response

From the call of `next` whose fetch decodes a response on, a search hands out one row for each hit,
in the order of the response, and then the end. It sends no request any more. A row has its score in
the metadata only, and a row of mongos has the `_id` of a key that has one, because `decodeHit`
accepts no other key.
-/

set_option autoImplicit false

namespace ExtensionSdkMongodb.OpenSearch

open SourceStage (Next)
open Failover

/-! ## Rows of hits -/

/-- The row of a hit on the replica set: its `_id`, and the score as metadata. -/
def CandidateRow (hit : Json) (row : Next) : Prop :=
  ∃ id, (hit.get "_id").bind Json.asStr = some id ∧
    row = .advanced [("_id", .string id)]
      (some [(scoreKey, .double (((hit.get "_score").bind Json.asF64).getD ⟨0⟩))])

/-- The row of a hit on mongos: the `_id` of its key, the fields of the key in their order, and the
score as metadata. -/
def RouterRow (readers : KeyReaders) (hit : Json) (row : Next) : Prop :=
  ∃ raw key id score, (hit.get "_id").bind Json.asStr = some raw ∧
    decodeKey readers raw = .ok key ∧ key.fields.get "_id" = some id ∧
    (hit.get "_score").bind Json.asF64 = some score ∧
    row = .advanced
      [("_id", id),
        ("__mongoKey", .array (key.fields.map fun field =>
          .document [("k", .string field.1), ("v", field.2)]))]
      (some [(scoreKey, .double score)])

theorem mapM_forall₂ {α β ε : Type} {f : α → Except ε β} {as : List α} {bs : List β}
    (mapped : as.mapM f = .ok bs) : List.Forall₂ (fun a b => f a = .ok b) as bs := by
  induction as generalizing bs with
  | nil =>
      cases mapped
      exact .nil
  | cons a as ih =>
      rw [List.mapM_cons] at mapped
      cases first : f a with
      | error e => simp [first, bind, Except.bind] at mapped
      | ok b =>
          cases rest : as.mapM f with
          | error e => simp [first, rest, bind, Except.bind] at mapped
          | ok bs' =>
              simp only [first, rest, bind, Except.bind, pure, Except.pure,
                Except.ok.injEq] at mapped
              subst mapped
              exact .cons first (ih rest)

theorem candidateRow_of_decoded {hit : Json} {document : Document}
    (decoded : decodeCandidate scoreKey hit = .ok document) :
    CandidateRow hit (candidateNext document) := by
  unfold decodeCandidate at decoded
  cases found : (hit.get "_id").bind Json.asStr with
  | none => simp [found] at decoded
  | some id =>
      simp only [found, Except.ok.injEq] at decoded
      subst decoded
      refine ⟨id, found, ?_⟩
      have other : "_id" ≠ scoreKey := by decide
      simp [candidateNext, Document.insert, Document.containsKey, Document.erase, other]

theorem routerRow_of_decoded {readers : KeyReaders} {hit : Json} {row : MongoKey × Double}
    (decoded : decodeHit readers hit = .ok row) : RouterRow readers hit (routerNext row) := by
  unfold decodeHit at decoded
  cases found : (hit.get "_id").bind Json.asStr with
  | none => simp [found] at decoded
  | some raw =>
      simp only [found] at decoded
      cases keyed : decodeKey readers raw with
      | error e => simp [keyed, bind, Except.bind] at decoded
      | ok key =>
          cases scored : ((hit.get "_score").bind Json.asF64).filter Double.isFinite with
          | none => simp [keyed, scored, bind, Except.bind] at decoded
          | some score =>
              simp only [keyed, scored, bind, Except.bind, pure, Except.pure,
                Except.ok.injEq] at decoded
              subst decoded
              have stored : key.fields.get "_id" = some key.id :=
                (Option.some_get key.hasId).symm
              exact ⟨raw, key, key.id, score, found, keyed, stored,
                (Option.filter_eq_some_iff.mp scored).1, rfl⟩

/-! ## Runs from a decoded response -/

section Emission

variable {σ ρ : Type}

/-- What follows from a call of `next` that decodes a response to rows, when the checks of that
call and of the later ones pass. The rows are those of the hits of the last answer, at most the
limit of them. The calls return one row each, in the order of the hits, and then the end. After
the response is decoded only checks happen. -/
def EmitsResponse (world : World)
    (fetch : σ → FetchLog → Except ExtensionError (List ρ) × FetchLog)
    (next : Machine (σ × FetchLog) Unit (Except ExtensionError Next)) (unloaded : σ → Prop)
    (limit : σ → ℕ) (decodes : σ → Json → List ρ → Prop) (rowOf : Json → Next → Prop) : Prop :=
  ∀ s log rows after calls, unloaded s →
    fetch s (log ++ [.interrupt (.ok ())]) = (.ok rows, after) →
    next.Along (fun t _ => world.checkInterrupt t.2 = .ok ()) (s, log) (() :: calls) →
    ∃ trace endpoint response hits emitted,
      after = log ++ [.interrupt (.ok ())] ++ trace ∧
      (answers trace).getLast? = some (endpoint, .ok response) ∧ decodes s response rows ∧
      (response.pointer ["hits", "hits"]).bind Json.asArray = some hits ∧
      List.Forall₂ rowOf hits emitted ∧ emitted.length ≤ limit s ∧
      (∀ i ≤ calls.length, (next.outputs (s, log) (() :: calls))[i]? =
        some (.ok (emitted[i]?.getD .eof))) ∧
      (next.after (s, log) (() :: calls)).2 =
        after ++ List.replicate calls.length (.interrupt (.ok ()))

variable {world : World}
  {fetch : σ → FetchLog → Except ExtensionError (List ρ) × FetchLog}
  {next : Machine (σ × FetchLog) Unit (Except ExtensionError Next)} {unloaded : σ → Prop}
  {limit : σ → ℕ} {decodes : σ → Json → List ρ → Prop} {rowOf : Json → Next → Prop}
  {emit : ρ → Next} {place : σ → Option (List ρ) → σ}

theorem iterate_append (log : FetchLog) (n : ℕ) :
    (fun log : FetchLog => log ++ [.interrupt (.ok ())])^[n] log =
      log ++ List.replicate n (.interrupt (.ok ())) := by
  induction n generalizing log with
  | zero => simp
  | succ n ih =>
      rw [Function.iterate_succ_apply, ih, List.append_assoc, List.replicate_succ,
        List.singleton_append]

/-- **A search that pulls from its failover hands out the response it decoded.** -/
theorem emitsResponse_of_pulls (inquiry : σ → Inquiry ρ)
    (runs : ∀ s log, fetch s log = (inquiry s).failover world log)
    (pulls : ∀ s, Pulls next ⟨world.interrupt, fetch s⟩ (place s) (shown emit))
    (fresh : ∀ s, unloaded s → place s none = s)
    (judged : ∀ s endpoint answer rows,
      (inquiry s).policy.verdict endpoint answer = .settled (.ok rows) →
        ∃ response hits, answer = .ok response ∧ decodes s response rows ∧
          (response.pointer ["hits", "hits"]).bind Json.asArray = some hits ∧
          List.Forall₂ rowOf hits (rows.map emit) ∧ rows.length ≤ limit s) :
    EmitsResponse world fetch next unloaded limit decodes rowOf := by
  intro s log rows after calls opened fetched passing
  obtain ⟨trace, grown, fetches⟩ := fetches_of_runs (runs s) (log ++ [.interrupt (.ok ())])
  rw [fetched] at grown fetches
  obtain ⟨earlier, endpoint, answer, asked, _, verdict⟩ := fetches.contract.settles
  obtain ⟨response, hits, rfl, decoded, found, rowsOf, atMost⟩ :=
    judged s endpoint answer rows verdict
  have checks : ∀ w, (world.interrupt w).1 = .ok () →
      (world.interrupt w).2 = w ++ [.interrupt (.ok ())] := by
    intro w passes
    have passes : world.checkInterrupt w = .ok () := passes
    rw [World.interrupt, passes]
  obtain ⟨outputs, last⟩ := (pulls s).drains checks fetched calls (by rwa [fresh s opened])
  rw [fresh s opened] at outputs last
  refine ⟨trace, endpoint, response, hits, rows.map emit, grown, ?_, decoded, found, rowsOf, ?_,
    ?_, ?_⟩
  · rw [asked, List.getLast?_concat]
  · rwa [List.length_map]
  · intro i le
    rw [outputs i le, List.getElem?_map]
    cases rows[i]? <;> rfl
  · rw [last, iterate_append]

end Emission

section Searches

variable (readers : KeyReaders) (toValue : Bson → Option Json) (world : World)

theorem candidates_judged {limit : ℕ} {endpoint : String} {answer : Except String Json}
    {rows : List Document}
    (verdict : (candidatesPolicy limit).verdict endpoint answer = .settled (.ok rows)) :
    ∃ response hits, answer = .ok response ∧ decodeCandidates response scoreKey limit = .ok rows ∧
      (response.pointer ["hits", "hits"]).bind Json.asArray = some hits ∧
      List.Forall₂ CandidateRow hits (rows.map candidateNext) ∧ rows.length ≤ limit := by
  cases answer with
  | error e => simp [candidatesPolicy, Except.bind] at verdict
  | ok response =>
      have decoded : decodeCandidates response scoreKey limit = .ok rows := by
        simp only [candidatesPolicy, Except.bind] at verdict
        cases decoded : decodeCandidates response scoreKey limit with
        | error e => simp [decoded] at verdict
        | ok documents => simpa [decoded] using verdict
      refine ⟨response, ?_⟩
      have parts := decoded
      unfold decodeCandidates at parts
      cases found : (response.pointer ["hits", "hits"]).bind Json.asArray with
      | none => simp [found] at parts
      | some hits =>
          simp only [found] at parts
          split at parts
          · cases parts
          · next atMost =>
            have each := mapM_forall₂ parts
            refine ⟨hits, rfl, decoded, rfl, ?_, ?_⟩
            · rw [List.forall₂_map_right_iff]
              exact each.imp fun _ _ => candidateRow_of_decoded
            · rw [← each.length_eq]
              exact Nat.le_of_not_lt atMost

theorem hits_judged {limit : ℕ} {endpoint : String} {answer : Except String Json}
    {rows : List (MongoKey × Double)}
    (verdict : (hitsPolicy readers limit).verdict endpoint answer = .settled (.ok rows)) :
    ∃ response hits, answer = .ok response ∧ decodeResponse readers response limit = .ok rows ∧
      (response.pointer ["hits", "hits"]).bind Json.asArray = some hits ∧
      List.Forall₂ (RouterRow readers) hits (rows.map routerNext) ∧ rows.length ≤ limit := by
  cases answer with
  | error e => simp [hitsPolicy] at verdict
  | ok response =>
      have decoded : decodeResponse readers response limit = .ok rows := by
        simpa [hitsPolicy] using verdict
      refine ⟨response, ?_⟩
      have parts := decoded
      unfold decodeResponse at parts
      split at parts
      · cases parts
      · cases found : (response.pointer ["hits", "hits"]).bind Json.asArray with
        | none => simp [found] at parts
        | some hits =>
            simp only [found] at parts
            split at parts
            · cases parts
            · next atMost =>
              have each := mapM_forall₂ parts
              refine ⟨hits, rfl, decoded, rfl, ?_, ?_⟩
              · rw [List.forall₂_map_right_iff]
                exact each.imp fun _ _ => routerRow_of_decoded
              · rw [← each.length_eq]
                exact Nat.le_of_not_lt atMost

/-- **Both searches hand out the response they decoded**: one row for each hit, in order, then the
end, and no further request. The rows of mongos are made of keys that have an `_id`. -/
theorem searches_emit_response :
    EmitsResponse world (fetchCandidates toValue world) (nextResult toValue world)
      (fun s => s.loaded = false) (fun s => s.args.limitUsize)
      (fun s response rows => decodeCandidates response scoreKey s.args.limitUsize = .ok rows)
      CandidateRow ∧
    EmitsResponse world (fetch readers toValue world) (routerNextResult readers toValue world)
      (fun s => s.rows = none) (fun s => s.args.limitUsize)
      (fun s response rows => decodeResponse readers response s.args.limitUsize = .ok rows)
      (RouterRow readers) := by
  refine ⟨?_, ?_⟩
  · apply emitsResponse_of_pulls (SearchState.inquiry toValue) (fun _ _ => rfl)
      (nextResult_pulls toValue world)
    · intro s unloaded
      simp [SearchState.place, ← unloaded]
    · intro s endpoint answer rows verdict
      exact candidates_judged verdict
  · apply emitsResponse_of_pulls (RouterState.inquiry readers toValue) (fun _ _ => rfl)
      (routerNextResult_pulls readers toValue world)
    · intro s unloaded
      simp [RouterState.place, ← unloaded]
    · intro s endpoint answer rows verdict
      exact hits_judged readers verdict

end Searches

/-! ### A response with one hit -/

/-- The readers on the key of the hit. -/
def rainReaders : KeyReaders where
  fromStr _ := .ok (.object [("_id", .string "a")])
  tryFrom _ := .ok (.document [("_id", .string "a")])

def rainHit : Json :=
  .object [("_id", .string "\x7b\"_id\":\"a\"\x7d"), ("_score", .int 1)]

def rainAnswer : Json := .object [("hits", .object [("hits", .array [rainHit])])]

/-- A host without interrupts and deadlines, and an endpoint with one hit. -/
def rainWorld : World where
  checkInterrupt _ := .ok ()
  nowMs _ := 0
  deadlineTimestampMs _ := .ok none
  postSearch _ _ _ _ := .ok rainAnswer

/-- A search on mongos that was just opened. -/
def rainState : RouterState :=
  ⟨⟨"title", "rain", 10, none⟩, "mongodb.shop.items", ⟨["http://a:9200"]⟩, none⟩

/-- Three calls: the row of the hit, and the end twice. -/
theorem searches_emit_response_rain :
    ∃ row, RouterRow rainReaders rainHit row ∧
      (routerNextResult rainReaders Bson.image rainWorld).outputs (rainState, []) [(), (), ()] =
        [.ok row, .ok .eof, .ok .eof] := by
  have fetched : ∃ rows, fetch rainReaders Bson.image rainWorld rainState
      ([] ++ [.interrupt (.ok ())]) = (.ok rows, [] ++ [.interrupt (.ok ())] ++
        [.permit (.ok defaultTimeout), .attempt "http://a:9200" defaultTimeout (.ok rainAnswer),
          .interrupt (.ok ())]) := ⟨_, rfl⟩
  obtain ⟨rows, fetched⟩ := fetched
  have passing : (routerNextResult rainReaders Bson.image rainWorld).Along
      (fun t _ => rainWorld.checkInterrupt t.2 = .ok ()) (rainState, []) [(), (), ()] :=
    ⟨rfl, rfl, rfl, trivial⟩
  obtain ⟨trace, endpoint, response, hits, emitted, grown, answered, -, found, rowsOf, -, outputs,
      -⟩ :=
    (searches_emit_response rainReaders Bson.image rainWorld).2 rainState [] rows _ [(), ()] rfl
      fetched passing
  obtain rfl := List.append_cancel_left grown
  cases answered
  cases found
  obtain ⟨row, rest, isRow, none_, rfl⟩ := List.forall₂_cons_left_iff.mp rowsOf
  cases none_
  refine ⟨row, isRow, List.ext_getElem? fun i => ?_⟩
  match i with
  | 0 => exact outputs 0 (by decide)
  | 1 => exact outputs 1 (by decide)
  | 2 => exact outputs 2 (by decide)
  | i + 3 => rfl

end ExtensionSdkMongodb.OpenSearch
