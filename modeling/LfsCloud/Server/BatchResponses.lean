import LfsCloud.Server.Batch

/-!
# What a batch request is answered

In whatever order the lookups of a batch request complete, its response is the one of looking
up every entry alone, in order: an entry for each object, with an action, with nothing, or
with an error.
-/

namespace LfsCloud

open Transition

section Outcomes

variable {T : Type} {outcomeFromLookup : LfsObject → ObjectLookup → T}
  {lookup : LfsObject → ObjectLookup}

/-- The objects that are looked up are those of the request. -/
theorem mem_keys_uniqueObjects {requested : List LfsObject} {object : LfsObject} :
    object ∈ (uniqueObjects requested).keys ↔ object ∈ requested := by
  have hfold : ∀ (requested : List LfsObject) (objects : SortedMap LfsObject Unit),
      object ∈ (requested.foldl (fun objects object => objects.insert object ()) objects).keys ↔
        object ∈ requested ∨ object ∈ objects.keys := by
    intro requested
    induction requested with
    | nil => intro objects; simp
    | cons first rest ih =>
      intro objects
      rw [List.foldl_cons, ih, SortedMap.mem_keys_insert, List.mem_cons]
      tauto
  have hempty : object ∉ (SortedMap.empty : SortedMap LfsObject Unit).keys := List.not_mem_nil
  unfold uniqueObjects
  rw [hfold]
  tauto

/-- The outcome of an object that was looked up is found. -/
theorem lookup_collectOutcomes {outcome : LfsObject → T} {objects : List LfsObject}
    {object : LfsObject} (hmem : object ∈ objects) :
    (collectOutcomes (objects.map fun object => (object, outcome object))).lookup object =
      some (outcome object) := by
  have hfold : ∀ (objects : List LfsObject) (collected : SortedMap LfsObject T),
      object ∈ objects ∨ collected.lookup object = some (outcome object) →
      ((objects.map fun object => (object, outcome object)).foldl
        (fun collected outcome => collected.insert outcome.1 outcome.2) collected).lookup
          object = some (outcome object) := by
    intro objects
    induction objects with
    | nil =>
      intro collected h
      rcases h with h | h
      · cases h
      · exact h
    | cons first rest ih =>
      intro collected h
      rw [List.map_cons, List.foldl_cons]
      apply ih
      by_cases hfirst : object = first
      · right
        rw [SortedMap.lookup_insert, if_pos hfirst, hfirst]
      · rcases h with h | h
        · left
          exact (List.mem_cons.mp h).resolve_left hfirst
        · right
          rw [SortedMap.lookup_insert, if_neg hfirst]
          exact h
  exact hfold objects .empty (.inl hmem)

/-- When the lookups are over, every entry has the outcome of its own lookup. -/
theorem fanOut_of_finished {requested : List LfsObject}
    {s : Buffered.State LfsObject (LfsObject × T)}
    (hreach : (lookupSystem outcomeFromLookup lookup requested).Reachable s)
    (hfinished : s.Finished) :
    fanOut requested s.output =
      some (requested.map fun object => outcomeFromLookup object (lookup object)) := by
  have hanswers := Buffered.output_of_finished hreach hfinished
  have hmap : ∀ {objects outcomes}, List.Forall₂ (lookupTask outcomeFromLookup lookup) objects
      outcomes → outcomes = objects.map fun object =>
        (object, outcomeFromLookup object (lookup object)) := by
    intro objects outcomes h
    induction h with
    | nil => rfl
    | cons hfirst _ ih => rw [List.map_cons, ← ih, hfirst]
  have houtput := hmap hanswers
  have hfound : ∀ object ∈ requested, (collectOutcomes s.output).lookup object =
      some (outcomeFromLookup object (lookup object)) := by
    intro object hobject
    rw [houtput]
    exact lookup_collectOutcomes (mem_keys_uniqueObjects.mpr hobject)
  unfold fanOut
  clear hreach houtput hanswers hmap
  induction requested with
  | nil => rfl
  | cons first rest ih =>
    have hrest := ih fun object hobject => hfound object (List.mem_cons_of_mem _ hobject)
    rw [List.mapM_cons, hfound first List.mem_cons_self, hrest]
    rfl

/-- The lookups can go on until they are over, and they end. -/
structure LookupsEnd (outcomeFromLookup : LfsObject → ObjectLookup → T)
    (lookup : LfsObject → ObjectLookup) (requested : List LfsObject) : Prop where
  progress : ∀ s, ¬s.Finished → ∃ event t,
    (lookupSystem outcomeFromLookup lookup requested).step s event t
  measure : ∀ s event t, (lookupSystem outcomeFromLookup lookup requested).step s event t →
    t.measure + 1 = s.measure

theorem lookupsEnd (outcomeFromLookup : LfsObject → ObjectLookup → T)
    (lookup : LfsObject → ObjectLookup) (requested : List LfsObject) :
    LookupsEnd outcomeFromLookup lookup requested where
  progress s hunfinished :=
    Buffered.exists_step (by decide) (fun object => ⟨_, rfl⟩) hunfinished
  measure s event t hstep := hstep.measure

end Outcomes

section Responses

variable (buildUrl : UrlBuilder) (base64 : String → String)
  (publicUrl repositoryLfsPath token : String)

/-- The response of `download_batch_response_with_storage_lookup` with authorized actions, from
the outcomes of the lookups. -/
def downloadBatchResponse (requested : List LfsObject)
    (outcomes : List (LfsObject × LfsBatchDownloadObject)) : Option LfsBatchResponse :=
  (fanOut requested outcomes).map fun objects =>
    withSessionActionAuthorization base64 token
      (.download buildUrl publicUrl repositoryLfsPath objects)

/-- The response of `upload_batch_response_with_storage_lookup` with authorized actions, from
the outcomes of the lookups. -/
def uploadBatchResponse (requested : List LfsObject)
    (outcomes : List (LfsObject × LfsBatchUploadObject)) : Option LfsBatchResponse :=
  (fanOut requested outcomes).map fun objects =>
    withSessionActionAuthorization base64 token
      (.upload buildUrl publicUrl repositoryLfsPath objects)

/-- The response of looking up every entry alone, in order. -/
def aloneResponse (lookup : LfsObject → ObjectLookup) (requested : List LfsObject) :
    LfsBatchOperation → LfsBatchResponse
  | .download => withSessionActionAuthorization base64 token
      (.download buildUrl publicUrl repositoryLfsPath
        (requested.map fun object => downloadBatchLookupOutcome object (lookup object)))
  | .upload => withSessionActionAuthorization base64 token
      (.upload buildUrl publicUrl repositoryLfsPath
        (requested.map fun object => uploadBatchLookupOutcome object (lookup object)))

/-- The name of the action of an operation. -/
def LfsBatchOperation.action : LfsBatchOperation → String
  | .download => "download"
  | .upload => "upload"

/-- The entry has the action of the operation, with the authorization of the session, and no
error. -/
def HasAction (operation : LfsBatchOperation) (entry : LfsBatchObjectResponse) : Prop :=
  (∃ action, entry.actions.entries = [(operation.action, action)] ∧
    action.header.lookup "Authorization" =
      some ("Basic " ++ base64 (defaultGitCredentialUsername ++ ":" ++ token))) ∧
  entry.error = none

/-- The entry has nothing but the object, which is an upload that is not needed. -/
def IsBare (operation : LfsBatchOperation) (entry : LfsBatchObjectResponse) : Prop :=
  operation = .upload ∧ entry.actions.entries = [] ∧ entry.error = none

/-- The entry has an error, and no action. -/
def HasError (entry : LfsBatchObjectResponse) : Prop :=
  entry.actions.entries = [] ∧ entry.error.isSome = true

/-- The answer to one object: its own identifier and size, and exactly one of an action, bare
presence and an error. -/
structure AnswersEntry (operation : LfsBatchOperation) (object : LfsObject)
    (entry : LfsBatchObjectResponse) : Prop where
  oid_eq : entry.oid = object.oid
  size_eq : entry.size = object.size
  one : HasAction base64 token operation entry ∨ IsBare operation entry ∨ HasError entry
  action_excludes : HasAction base64 token operation entry →
    ¬IsBare operation entry ∧ ¬HasError entry
  bare_excludes : IsBare operation entry → ¬HasError entry

variable {base64 token}

theorem HasAction.excludes {operation : LfsBatchOperation} {entry : LfsBatchObjectResponse}
    (h : HasAction base64 token operation entry) :
    ¬IsBare operation entry ∧ ¬HasError entry := by
  obtain ⟨⟨action, hactions, _⟩, _⟩ := h
  constructor
  · rintro ⟨_, hnone, _⟩
    rw [hactions] at hnone
    cases hnone
  · rintro ⟨hnone, _⟩
    rw [hactions] at hnone
    cases hnone

theorem IsBare.excludes {operation : LfsBatchOperation} {entry : LfsBatchObjectResponse}
    (h : IsBare operation entry) : ¬HasError entry := by
  obtain ⟨_, _, hnone⟩ := h
  rintro ⟨_, hsome⟩
  rw [hnone] at hsome
  cases hsome

/-- The response with its actions authorized. -/
def authorizeEntry (base64 : String → String) (token : String)
    (entry : LfsBatchObjectResponse) : LfsBatchObjectResponse :=
  { entry with
    actions := entry.actions.mapValues fun action => { action with
      header := action.header.insert "Authorization"
        ("Basic " ++ base64 (defaultGitCredentialUsername ++ ":" ++ token)) } }

/-- An entry with an action is authorized. -/
theorem answersEntry_action {operation : LfsBatchOperation} {object : LfsObject} :
    AnswersEntry base64 token operation object (authorizeEntry base64 token
      (withTransferAction buildUrl publicUrl repositoryLfsPath operation.action object)) := by
  refine ⟨rfl, rfl, Or.inl ⟨⟨_, rfl, ?_⟩, rfl⟩, HasAction.excludes, IsBare.excludes⟩
  rw [SortedMap.lookup_insert, if_pos rfl]

/-- An entry with an error has no action. -/
theorem answersEntry_error {operation : LfsBatchOperation} {object : LfsObject}
    {error : LfsBatchObjectError} :
    AnswersEntry base64 token operation object
      (authorizeEntry base64 token (.withError object error)) :=
  ⟨rfl, rfl, Or.inr (Or.inr ⟨rfl, rfl⟩), HasAction.excludes, IsBare.excludes⟩

variable (base64 token)

/-- Looked up alone, every entry is answered. -/
theorem aloneResponse_answers (lookup : LfsObject → ObjectLookup) (requested : List LfsObject)
    (operation : LfsBatchOperation) :
    List.Forall₂ (AnswersEntry base64 token operation) requested
      (aloneResponse buildUrl base64 publicUrl repositoryLfsPath token lookup requested
        operation).objects := by
  have hdownload : ∀ object, AnswersEntry base64 token .download object
      (authorizeEntry base64 token ((downloadBatchLookupOutcome object (lookup object)).intoResponse
        buildUrl publicUrl repositoryLfsPath)) := by
    intro object
    cases lookup object with
    | error error => exact answersEntry_error
    | ok found =>
      cases found with
      | none => exact answersEntry_error
      | some stored => exact answersEntry_action buildUrl publicUrl repositoryLfsPath
  have hupload : ∀ object, AnswersEntry base64 token .upload object
      (authorizeEntry base64 token ((uploadBatchLookupOutcome object (lookup object)).intoResponse
        buildUrl publicUrl repositoryLfsPath)) := by
    intro object
    cases lookup object with
    | error error => exact answersEntry_error
    | ok found =>
      cases found with
      | none => exact answersEntry_action buildUrl publicUrl repositoryLfsPath
      | some stored =>
        exact ⟨rfl, rfl, Or.inr (Or.inl ⟨rfl, rfl, rfl⟩), HasAction.excludes, IsBare.excludes⟩
  cases operation with
  | download =>
    change List.Forall₂ _ requested (List.map _ (List.map _ (List.map _ requested)))
    rw [List.map_map, List.map_map, List.forall₂_map_right_iff, List.forall₂_same]
    exact fun object _ => hdownload object
  | upload =>
    change List.Forall₂ _ requested (List.map _ (List.map _ (List.map _ requested)))
    rw [List.map_map, List.map_map, List.forall₂_map_right_iff, List.forall₂_same]
    exact fun object _ => hupload object

/-- What holds of the responses to the batch requests for a list of objects. -/
structure BatchAgrees (lookup : LfsObject → ObjectLookup) (requested : List LfsObject) :
    Prop where
  download : ∀ s, (lookupSystem downloadBatchLookupOutcome lookup requested).Reachable s →
    s.Finished →
      downloadBatchResponse buildUrl base64 publicUrl repositoryLfsPath token requested s.output =
        some (aloneResponse buildUrl base64 publicUrl repositoryLfsPath token lookup requested
          .download)
  upload : ∀ s, (lookupSystem uploadBatchLookupOutcome lookup requested).Reachable s →
    s.Finished →
      uploadBatchResponse buildUrl base64 publicUrl repositoryLfsPath token requested s.output =
        some (aloneResponse buildUrl base64 publicUrl repositoryLfsPath token lookup requested
          .upload)
  download_ends : LookupsEnd downloadBatchLookupOutcome lookup requested
  upload_ends : LookupsEnd uploadBatchLookupOutcome lookup requested
  /-- As many entries as objects, in the same order, each of them an answer. -/
  answers : ∀ operation, List.Forall₂ (AnswersEntry base64 token operation) requested
    (aloneResponse buildUrl base64 publicUrl repositoryLfsPath token lookup requested
      operation).objects

/-- However its lookups are scheduled, a batch request is answered as if every entry were
looked up alone. -/
theorem batch_responses_agree (lookup : LfsObject → ObjectLookup) (requested : List LfsObject) :
    BatchAgrees buildUrl base64 publicUrl repositoryLfsPath token lookup requested where
  download s hreach hfinished := by
    unfold downloadBatchResponse
    rw [fanOut_of_finished hreach hfinished]
    rfl
  upload s hreach hfinished := by
    unfold uploadBatchResponse
    rw [fanOut_of_finished hreach hfinished]
    rfl
  download_ends := lookupsEnd _ _ _
  upload_ends := lookupsEnd _ _ _
  answers := aloneResponse_answers _ _ _ _ _ _ _

end Responses

end LfsCloud
