import HkuRest.Core.Trimming
import HkuRest.Httpd.ResponseHeaders
import HkuRest.Httpd.RestHandle

/-! The responses of requests that fail. What failed is written over a response that earlier
stages have worked on: the body, its type and its length are replaced, and of the codings
only a final `chunked` is taken off. -/

namespace Hku

def Field.contentEncoding : Bytes := Bytes.ascii "Content-Encoding"

namespace Response

/-- The codings in which the body is transferred. -/
def transferCodings (response : Response) : List Bytes :=
  Fields.tokens (response.fields.get Field.transferEncoding)

/-- What a client makes of the body that can inflate it, by what the header says of it. -/
def decoded (inflate : Bytes → Option Bytes) (response : Response) : Option Bytes :=
  if response.transferCodings ≠ [] then none
  else if response.fields.find Field.contentLength ≠ some (Bytes.decimal response.body.length) then none
  else
    match response.fields.find Field.contentEncoding with
    | none => some response.body
    | some coding => if coding.iequals (Bytes.ascii "gzip") then inflate response.body else none

/-- The body is this JSON text, and the header says so and nothing else. -/
structure SelfConsistent (text : Bytes) (response : Response) : Prop where
  body : response.body = text
  contentType : response.fields.find Field.contentType =
    some (Bytes.ascii "application/json; charset=UTF-8")
  contentLength : response.fields.find Field.contentLength = some (Bytes.decimal text.length)
  contentEncoding : response.fields.find Field.contentEncoding = none
  transferEncoding : response.transferCodings = []

/-- The body is announced in no coding that a failure leaves in place. -/
structure Uncoded (response : Response) : Prop where
  contentEncoding : response.fields.find Field.contentEncoding = none
  transferEncoding : response.transferCodings = [] ∨
    ∃ coding, response.transferCodings = [coding] ∧ coding.iequals (Bytes.ascii "chunked") = true

theorem SelfConsistent.decodes {text : Bytes} {response : Response}
    (consistent : SelfConsistent text response) (inflate : Bytes → Option Bytes) :
    response.decoded inflate = some text := by
  rw [decoded, consistent.transferEncoding, consistent.contentLength, consistent.contentEncoding,
    consistent.body]
  simp

end Response

namespace Handle

/-- What the stages leave behind, the last of them one that does not succeed. -/
def left (sendOk : Nat → Bool) (handle : Handle) (context : BeastContext) : Exchange :=
  handle.calls.foldl (HandleCall.perform sendOk) (.start context)

/-- The text that reports the failure, if one is reported. The payload is prepared after the
last stage, and that may throw too. -/
def errorText (bizErrMsg : Int → Bytes) (sendOk : Nat → Bool) (handle : Handle)
    (context : BeastContext) : Option Bytes :=
  let internal := Exchange.failureText bizBaseFailed (Bytes.ascii "internal error")
  match (runStages sendOk handle.stages (.start context)).2 with
  | .returned code =>
      if code = bizOk then
        if (handle.left sendOk context).chunkedTransfer = false ∧
            (handle.left sendOk context).context.res.preparePayload = none then some internal
        else none
      else some (Exchange.failureText code (bizErrMsg code))
  | .bizException errcode => some (Exchange.failureText errcode (Bytes.ascii "biz exception"))
  | .exception => some internal

end Handle

namespace Fields

variable {value token : Bytes}

theorem find_erase (fields : Fields) (name : Bytes) : (fields.erase name).find name = none := by
  rw [find, Option.map_eq_none_iff, List.find?_eq_none]
  intro field member
  simpa [erase] using (List.mem_filter.mp member).2

theorem get_setOrErase (fields : Fields) (name : Bytes) {value : Bytes} (trimmed : value.trim = value) :
    (fields.setOrErase name value).get name = value := by
  rw [setOrErase, get]
  split
  · rename_i empty
    rw [find_erase, empty, Option.getD_none]
  · rw [find_set_trimmed fields name trimmed, Option.getD_some]

theorem comma_not_mem_splitOn {part : Bytes} (member : part ∈ List.splitOn 0x2c value) :
    (0x2c : UInt8) ∉ part := by
  generalize split : List.splitOn 0x2c value = parts at member
  induction parts generalizing value with
  | nil => cases member
  | cons front rest ih =>
    obtain ⟨absent, ⟨-, rfl⟩ | ⟨more, -, rfl⟩⟩ := Delimited.splitOn_cases split
    · rwa [List.mem_singleton.mp member]
    · rcases List.mem_cons.mp member with rfl | later
      · exact absent
      · exact ih rfl later

theorem token_plain (member : token ∈ tokens value) :
    token ≠ [] ∧ token.trim = token ∧ (0x2c : UInt8) ∉ token := by
  obtain ⟨listed, filled⟩ := List.mem_filter.mp member
  obtain ⟨part, split, rfl⟩ := List.mem_map.mp listed
  refine ⟨of_decide_eq_true filled, Bytes.trim_trim part, fun comma => ?_⟩
  exact comma_not_mem_splitOn split ((Bytes.trim_sublist part).subset comma)

theorem tokens_joinTokens_ne_nil {rest : List Bytes} (plain : token ≠ [] ∧ token.trim = token ∧
    (0x2c : UInt8) ∉ token) : tokens (joinTokens (token :: rest)) ≠ [] := by
  obtain ⟨filled, full, single⟩ := plain
  have first : ∃ more, tokens (joinTokens (token :: rest)) = token :: more := by
    cases rest with
    | nil =>
      have joined : joinTokens [token] = token := by simp [joinTokens, List.intercalate]
      rw [joined, tokens, List.splitOn_eq_singleton single]
      simp [full, filled]
    | cons other rest =>
      have joined : joinTokens (token :: other :: rest) =
          token ++ 0x2c :: (0x20 :: joinTokens (other :: rest)) := by
        simp [joinTokens, List.intercalate, Bytes.ascii]
      rw [joined, tokens, List.splitOn_append_cons_self_of_not_mem single]
      simp [full, filled]
  obtain ⟨more, shape⟩ := first
  rw [shape]
  exact List.cons_ne_nil _ _

theorem joinTokens_trimmed {list : List Bytes} (plain : ∀ token ∈ list, token ≠ [] ∧ token.trim = token) :
    (joinTokens list).trim = joinTokens list := by
  have whole : list ≠ [] → (joinTokens list).trim = joinTokens list ∧ joinTokens list ≠ [] := by
    unfold joinTokens
    induction list with
    | nil => exact fun empty => absurd rfl empty
    | cons token rest ih =>
      intro _
      obtain ⟨⟨begun, first⟩, others⟩ := List.forall_mem_cons.mp plain
      cases rest with
      | nil => simpa using ⟨first, begun⟩
      | cons other rest =>
        obtain ⟨last, ended⟩ := ih others (List.cons_ne_nil _ _)
        have joined := Bytes.trim_append (Bytes.ascii ", ") first begun last ended
        rw [List.intercalate_cons_cons]
        exact ⟨by simpa using joined, by simp [begun]⟩
  cases list with
  | nil => rfl
  | cons token rest => exact (whole (List.cons_ne_nil _ _)).1

end Fields

namespace Response

variable {response : Response} {text : Bytes} {status : Nat}

theorem transferCodings_set (response : Response) {name : Bytes} (value : Bytes)
    (other : name.iequals Field.transferEncoding = false) :
    (response.set name value).transferCodings = response.transferCodings := by
  rw [transferCodings, transferCodings, set, Fields.get_set_of_ne _ value other]

theorem transferCodings_dropChunked : response.dropChunked.transferCodings = [] ↔
    response.transferCodings = [] ∨
      ∃ coding, response.transferCodings = [coding] ∧ coding.iequals (Bytes.ascii "chunked") = true := by
  have last_of_single {front : List Bytes} {last coding : Bytes} (single : front ++ [last] = [coding]) :
      front = [] ∧ last = coding := by
    cases front with
    | nil => exact ⟨rfl, List.singleton_inj.mp single⟩
    | cons => simp at single
  have plain := fun token => @Fields.token_plain (response.fields.get Field.transferEncoding) token
  simp only [dropChunked]
  rw [← transferCodings] at plain ⊢
  generalize listed : response.transferCodings = codings at plain ⊢
  rcases List.eq_nil_or_concat' codings with rfl | ⟨front, last, rfl⟩
  · simp [listed]
  rw [List.getLast?_concat, Option.any_some, List.dropLast_concat]
  by_cases chunked : last.iequals (Bytes.ascii "chunked") = true
  · have trimmed : (Fields.joinTokens front).trim = Fields.joinTokens front :=
      Fields.joinTokens_trimmed fun token member =>
        ⟨(plain token (List.mem_append_left _ member)).1, (plain token (List.mem_append_left _ member)).2.1⟩
    rw [if_pos chunked, transferCodings, Fields.get_setOrErase _ _ trimmed]
    cases front with
    | nil => exact iff_of_true (by decide) (.inr ⟨last, rfl, chunked⟩)
    | cons token rest =>
      refine iff_of_false (Fields.tokens_joinTokens_ne_nil (plain token (by simp))) ?_
      rintro (empty | ⟨coding, single, -⟩)
      · cases empty
      · cases (last_of_single single).1
  · rw [if_neg chunked, listed]
    refine iff_of_false (by simp) ?_
    rintro (empty | ⟨coding, single, other⟩)
    · simp at empty
    · obtain ⟨-, rfl⟩ := last_of_single single
      exact chunked other

theorem dropChunked_body (response : Response) : response.dropChunked.body = response.body := by
  simp only [dropChunked]
  split <;> rfl

theorem dropChunked_find_of_ne (response : Response) {name : Bytes}
    (other : Field.transferEncoding.iequals name = false) :
    response.dropChunked.fields.find name = response.fields.find name := by
  simp only [dropChunked]
  split
  · exact response.fields.find_setOrErase_of_ne _ other
  · rfl

theorem failure_eq (reported : status = 200 ∨ status = 500) (text : Bytes) (response : Response) :
    Exchange.failure status text response =
      (((((response.result status).set Field.contentType
        (Bytes.ascii "application/json; charset=UTF-8")).setBody text).set Field.contentLength
          (Bytes.decimal text.length)).dropChunked) := by
  have allowed : ¬ (text ≠ [] ∧ (status / 100 = 1 ∨ status = 204 ∨ status = 304)) := by
    rcases reported with rfl | rfl <;> simp
  let failed := ((response.result status).set Field.contentType
    (Bytes.ascii "application/json; charset=UTF-8")).setBody text
  have prepared : failed.preparePayload =
      some (failed.set Field.contentLength (Bytes.decimal failed.body.length)).dropChunked :=
    if_neg allowed
  exact congrArg (Option.getD · failed) prepared

theorem failure_consistent_iff (reported : status = 200 ∨ status = 500) (text : Bytes)
    (response : Response) :
    SelfConsistent text (Exchange.failure status text response) ↔ Uncoded response := by
  have codings : (Exchange.failure status text response).transferCodings = [] ↔
      response.transferCodings = [] ∨ ∃ coding, response.transferCodings = [coding] ∧
        coding.iequals (Bytes.ascii "chunked") = true := by
    rw [failure_eq reported, transferCodings_dropChunked, transferCodings_set _ _ (by decide)]
    have typed : ((response.result status).set Field.contentType
        (Bytes.ascii "application/json; charset=UTF-8")).transferCodings = response.transferCodings :=
      transferCodings_set (response.result status) _ (by decide)
    exact typed ▸ Iff.rfl
  have encoding : (Exchange.failure status text response).fields.find Field.contentEncoding =
      response.fields.find Field.contentEncoding := failure_find (by decide) status text
  constructor
  · intro consistent
    exact ⟨encoding.symm.trans consistent.contentEncoding, codings.mp consistent.transferEncoding⟩
  · intro uncoded
    refine ⟨?_, ?_, ?_, encoding.trans uncoded.contentEncoding, codings.mpr uncoded.transferEncoding⟩
    · rw [failure_eq reported, dropChunked_body]
      rfl
    · rw [failure_eq reported, dropChunked_find_of_ne _ (by decide)]
      exact (Fields.find_set_of_ne _ _ (by decide)).trans (Fields.find_set _ _ _)
    · rw [failure_eq reported, dropChunked_find_of_ne _ (by decide)]
      exact Fields.find_set_trimmed _ _ (Bytes.trim_decimal _)

end Response

section Invoke

variable {bizErrMsg : Int → Bytes} {sendOk : Nat → Bool} {handle : Handle} {context : BeastContext}
  {text : Bytes}

/-- Whatever fails, its text is written over what the stages left. -/
theorem invoke_failed (failed : handle.errorText bizErrMsg sendOk context = some text) :
    ∃ status, (status = 200 ∨ status = 500) ∧
      (handle.invoke bizErrMsg sendOk (.start context)).context.res =
        Exchange.failure status text (handle.left sendOk context).context.res := by
  have stays : handle.left sendOk context =
      (Handle.runStages sendOk handle.stages (.start context)).1 := by
    rw [Handle.left, Handle.calls, ← runStages_calls]
  simp only [Handle.errorText, stays] at failed
  simp only [Handle.invoke, stays]
  generalize Handle.runStages sendOk handle.stages (.start context) = ended at failed ⊢
  obtain ⟨after, outcome⟩ := ended
  cases outcome with
  | returned code =>
    simp only at failed ⊢
    by_cases success : code = bizOk
    · rw [if_pos success] at failed ⊢
      split at failed
      · rename_i unprepared
        obtain rfl := Option.some.inj failed
        rw [unprepared.1, unprepared.2]
        exact ⟨500, .inr rfl, rfl⟩
      · cases failed
    · rw [if_neg success] at failed ⊢
      obtain rfl := Option.some.inj failed
      exact ⟨200, .inl rfl, rfl⟩
  | bizException errcode =>
    obtain rfl := Option.some.inj failed
    exact ⟨200, .inl rfl, rfl⟩
  | exception =>
    obtain rfl := Option.some.inj failed
    exact ⟨500, .inr rfl, rfl⟩

/-- A failed request is answered consistently exactly if its stages left no coding in the
response, other than the one that `enableChunkedTransfer` announces. -/
theorem error_consistent_iff (failed : handle.errorText bizErrMsg sendOk context = some text) :
    (handle.invoke bizErrMsg sendOk (.start context)).context.res.SelfConsistent text ↔
      (handle.left sendOk context).context.res.Uncoded := by
  obtain ⟨status, reported, written⟩ := invoke_failed failed
  rw [written]
  exact Response.failure_consistent_iff reported text _

end Invoke

/-- A handler that announces a compressed body and then fails. -/
def announcer : Handle :=
  .ofRun ⟨[RestHandle.setResHeader "Content-Encoding" "gzip"], .returned bizBaseFailed⟩

theorem error_consistent_iff_announced :
    ¬ (announcer.invoke (fun _ => []) (fun _ => true) (.start .create)).context.res.SelfConsistent
      (Exchange.failureText bizBaseFailed []) := by
  have coded : ¬ (announcer.left (fun _ => true) .create).context.res.Uncoded := by
    intro uncoded
    exact absurd uncoded.contentEncoding (by decide)
  exact mt (@error_consistent_iff (fun _ => []) (fun _ => true) announcer .create _ rfl).mp coded

/-- Before any byte is sent. -/
theorem announced_coding_kept :
    ¬ ∀ (bizErrMsg : Int → Bytes) (sendOk : Nat → Bool) (handle : Handle) (context : BeastContext)
      (text : Bytes), handle.errorText bizErrMsg sendOk context = some text →
      (handle.left sendOk context).writes = [] →
      (handle.invoke bizErrMsg sendOk (.start context)).context.res.SelfConsistent text := by
  intro consistently
  have consistent := consistently (fun _ => []) (fun _ => true) announcer .create
    (Exchange.failureText bizBaseFailed []) rfl rfl
  exact absurd consistent.contentEncoding (by decide)

section Announced

variable {serializers : Serializers} {request : Request} {res : Json} {content : Bytes}
  (json : Format.ofAccept (request.getReqHeader (Bytes.ascii "Accept")) = .json)
  (encoded : serializers.encode .json
    (.object [(Bytes.ascii "data", res), (Bytes.ascii "ret", .integer 0)]) = some content)
  (long : content.length ≥ 10240)
  (accepted : Bytes.contains (Bytes.ascii "gzip")
    (request.getReqHeader (Bytes.ascii "Accept-Encoding")) = true)
  (throws : serializers.compress content = none)

include json encoded long accepted throws

/-- `after_run` announces the coding before it compresses. -/
theorem RestHandle.afterRun_announces : RestHandle.afterRun serializers request res =
    ([RestHandle.setResHeader "Content-Encoding" "gzip"], bizBaseFailed) := by
  simp only [RestHandle.afterRun, json, encoded, RestHandle.writeJson, long, accepted, and_self,
    if_true, throws]

/-- A request whose answer cannot be compressed fails with a text that is announced as
compressed. -/
theorem uncompressed_error_announced (bizErrMsg : Int → Bytes) (sendOk : Nat → Bool)
    (context : BeastContext) :
    (Handle.invoke bizErrMsg sendOk
      ⟨[], ([], bizOk), ⟨[], .returned bizOk⟩, RestHandle.afterRun serializers request res⟩
      (.start context)).context.res.fields.find Field.contentEncoding = some (Bytes.ascii "gzip") := by
  rw [RestHandle.afterRun_announces json encoded long accepted throws]
  obtain ⟨status, -, written⟩ := @invoke_failed bizErrMsg sendOk
    ⟨[], ([], bizOk), ⟨[], .returned bizOk⟩,
      ([RestHandle.setResHeader "Content-Encoding" "gzip"], bizBaseFailed)⟩ context _ rfl
  rw [written, Response.failure_find (by decide)]
  exact Fields.find_set _ _ _

end Announced

end Hku
