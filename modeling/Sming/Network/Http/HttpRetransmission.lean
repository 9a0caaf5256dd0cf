import Sming.Network.Http.HttpRequest

/-!
# Sending a request again

A connection that is lost puts its requests back as they then are, and what was sent has left its
traces in them. `transmit_equiv_iff` says when the second transmission of a request is the first one
over again. It splits by what the request carries: files, a form without files, a stream of the
application, or nothing.
-/

namespace Sming.Network.Http
open Sming.Wiring List Option

/-- How far a transmission got: the body has not been started, or it has and a number of parts of a
multipart body have been made. -/
inductive Loss where
  | inHeaders
  | inBody (parts : Nat)
  deriving Repr, DecidableEq

namespace HttpRequest

/-- The request as a lost connection leaves it. -/
def afterLoss (r : HttpRequest) (boundary : String) : Loss → HttpRequest
  | .inHeaders => r.sendRequestHeaders boundary
  | .inBody parts =>
    let s := (r.sendRequestHeaders boundary).startBody
    if 0 < r.files.count then s.produce parts else s

/-! ### The header fields of two transmissions -/

section
variable {r : HttpRequest} {h : HttpHeaders} {name : HttpHeaderFieldName} {value : String}

lemma has_hostHeaders :
    r.hostHeaders.Has name value ↔
      if name = .host ∧ r.headers.contains .host = false then value = r.uri.host
      else r.headers.Has name value := by
  rw [hostHeaders]
  cases r.headers.contains .host <;> simp

lemma has_typeHeaders {form : Option (String × BodyStream)} :
    (typeHeaders h form).Has name value ↔
      if name = .contentType ∧ form.isSome = true then form.map Prod.fst = some value
      else h.Has name value := by
  cases form with
  | none => simp [typeHeaders]
  | some f => simp [typeHeaders, eq_comm]

lemma has_frameHeaders {stream : Option BodyStream} (zero : ∀ v, h.Has .contentLength v ↔ v = "0") :
    (frameHeaders h stream).Has name value ↔
      if name = .contentLength then lengthField stream = some value
      else if name = .transferEncoding ∧ lengthField stream = none then value = "chunked"
      else h.Has name value := by
  have present : h.contains .contentLength = true := HttpHeaders.contains_iff.mpr ⟨"0", (zero _).mpr rfl⟩
  cases stream with
  | none =>
    by_cases hn : name = .contentLength
    · subst hn
      simp [frameHeaders, present, zero, lengthField, eq_comm]
    · simp [frameHeaders, present, hn, lengthField]
  | some stream =>
    cases ha : stream.available with
    | none =>
      by_cases hn : name = .contentLength
      · subst hn
        simp [frameHeaders, ha, lengthField]
      · simp [frameHeaders, ha, hn, lengthField]
    | some n =>
      by_cases hn : name = .contentLength
      · subst hn
        simp [frameHeaders, ha, lengthField, eq_comm]
      · simp [frameHeaders, ha, hn, lengthField]

lemma has_sentHeaders {boundary : String} :
    (r.sentHeaders boundary).Has name value ↔
      if name = .contentLength then lengthField (r.sentStream boundary) = some value
      else if name = .transferEncoding ∧ lengthField (r.sentStream boundary) = none then value = "chunked"
      else if name = .contentType ∧ (r.form boundary).isSome = true then (r.form boundary).map Prod.fst = some value
      else if name = .host ∧ r.headers.contains .host = false then value = r.uri.host
      else r.headers.Has name value := by
  rw [sentHeaders, has_frameHeaders (fun v => by simp [has_typeHeaders]), has_typeHeaders,
    HttpHeaders.has_set, has_hostHeaders]
  by_cases hn : name = .contentLength
  · simp [hn]
  · simp [hn]

lemma customFieldNames_frameHeaders (stream : Option BodyStream) :
    (frameHeaders h stream).customFieldNames = h.customFieldNames := by
  unfold frameHeaders
  simp only
  repeat' split
  all_goals rfl

lemma customFieldNames_sentHeaders (boundary : String) :
    (r.sentHeaders boundary).customFieldNames = r.headers.customFieldNames := by
  rw [sentHeaders, customFieldNames_frameHeaders]
  have host : r.hostHeaders.customFieldNames = r.headers.customFieldNames := by
    rw [hostHeaders]
    split <;> rfl
  cases r.form boundary with
  | none => exact host
  | some f => exact host

/-- `s` has the header fields that the transmission of `r` has left, up to an empty
`Transfer-Encoding`. -/
def Inherits (s r : HttpRequest) (boundary : String) (touched : Bool) : Prop :=
  s.headers = if touched then (r.sentHeaders boundary).touch .transferEncoding else r.sentHeaders boundary

section
variable {s : HttpRequest} {b₁ b₂ : String} {touched : Bool}

lemma Inherits.has_iff (hs : s.Inherits r b₁ touched) (other : name ≠ .transferEncoding) :
    s.headers.Has name value ↔ (r.sentHeaders b₁).Has name value := by
  rw [hs]
  cases touched <;> simp [other]

lemma Inherits.contains_host (hs : s.Inherits r b₁ touched) : s.headers.contains .host = true := by
  rw [HttpHeaders.contains_iff]
  simp only [hs.has_iff (show HttpHeaderFieldName.host ≠ .transferEncoding by decide), has_sentHeaders]
  cases hc : r.headers.contains .host with
  | true =>
    obtain ⟨v, hv⟩ := HttpHeaders.contains_iff.mp hc
    exact ⟨v, by simpa using hv⟩
  | false => exact ⟨r.uri.host, by simp⟩

lemma has_transferEncoding {boundary : String} (known : lengthField (r.sentStream boundary) ≠ none) :
    (r.sentHeaders boundary).Has .transferEncoding value ↔
      r.headers.Has .transferEncoding value := by
  simp [has_sentHeaders, known]

lemma Inherits.not_equiv (hs : s.Inherits r b₁ true)
    (known : lengthField (r.sentStream b₁) ≠ none) (known' : lengthField (s.sentStream b₂) ≠ none)
    (absent : r.headers.contains .transferEncoding = false) : ¬ (r.sentHeaders b₁).Equiv (s.sentHeaders b₂) := by
  rintro ⟨-, same⟩
  have first : ∀ v, ¬ (r.sentHeaders b₁).Has .transferEncoding v := by
    intro v hv
    have present := HttpHeaders.contains_iff.mpr ⟨v, (has_transferEncoding known).mp hv⟩
    rw [absent] at present
    cases present
  have none : (r.sentHeaders b₁).contains .transferEncoding = false := by
    rw [← Bool.not_eq_true, HttpHeaders.contains_iff]
    rintro ⟨v, hv⟩
    exact first v hv
  have second : (s.sentHeaders b₂).Has .transferEncoding "" := by
    rw [has_transferEncoding known', show s.headers = _ from hs]
    simp [none]
  exact first "" ((same _ _).mpr second)

lemma Inherits.has_transferEncoding_iff (hs : s.Inherits r b₁ touched) (known : lengthField (r.sentStream b₁) ≠ none)
    (coding : touched = false ∨ r.headers.contains .transferEncoding = true) :
    s.headers.Has .transferEncoding value ↔ (r.sentHeaders b₁).Has .transferEncoding value := by
  rw [hs]
  rcases coding with rfl | present
  · rfl
  · obtain ⟨v, hv⟩ := HttpHeaders.contains_iff.mp present
    have sent : (r.sentHeaders b₁).contains .transferEncoding = true :=
      HttpHeaders.contains_iff.mpr ⟨v, (has_transferEncoding known).mpr hv⟩
    cases touched <;> simp [sent]

lemma Inherits.has_sentHeaders_iff (hs : s.Inherits r b₁ touched)
    (type : ∀ f ∈ s.form b₂, (r.form b₁).map Prod.fst = some f.1)
    (hl : name ≠ .contentLength) (hc : name ≠ .transferEncoding) :
    (r.sentHeaders b₁).Has name value ↔ (s.sentHeaders b₂).Has name value := by
  rw [← hs.has_iff hc, has_sentHeaders (r := s), if_neg hl, if_neg (fun h => hc h.1)]
  cases hf : s.form b₂ with
  | none => simp [hs.contains_host]
  | some f =>
    by_cases ht : name = .contentType
    · subst ht
      obtain ⟨f₁, hr, e⟩ := map_eq_some_iff.mp (type f hf)
      rw [hs.has_iff (by decide), has_sentHeaders]
      simp [hr, e]
    · simp [ht, hs.contains_host]

lemma Inherits.equiv_iff (hs : s.Inherits r b₁ touched) (noForm : r.form b₁ = none → s.form b₂ = none) :
    (r.sentHeaders b₁).Equiv (s.sentHeaders b₂) ↔
      lengthField (r.sentStream b₁) = lengthField (s.sentStream b₂) ∧
      (∀ f ∈ s.form b₂, (r.form b₁).map Prod.fst = some f.1) ∧
      (lengthField (r.sentStream b₁) = none ∨ touched = false ∨ r.headers.contains .transferEncoding = true) := by
  constructor
  · intro equiv
    have length : lengthField (r.sentStream b₁) = lengthField (s.sentStream b₂) := by
      apply Option.ext
      intro v
      have := equiv.2 .contentLength v
      rwa [has_sentHeaders, has_sentHeaders, if_pos rfl, if_pos rfl] at this
    refine ⟨length, ?_, ?_⟩
    · intro f hf
      rw [mem_def] at hf
      cases hr : r.form b₁ with
      | none =>
        rw [noForm hr] at hf
        cases hf
      | some f₁ =>
        have := equiv.2 .contentType f₁.1
        simpa [has_sentHeaders, hr, hf, eq_comm] using this
    · by_contra h
      simp only [not_or, Bool.not_eq_false, Bool.not_eq_true] at h
      obtain ⟨known, rfl, absent⟩ := h
      exact hs.not_equiv known (length ▸ known) absent equiv
  · rintro ⟨length, type, coding⟩
    refine ⟨?_, fun name value => ?_⟩
    · rw [customFieldNames_sentHeaders b₂, hs]
      cases touched <;> rfl
    by_cases hl : name = .contentLength
    · subst hl
      simp [has_sentHeaders, length]
    by_cases hc : name = .transferEncoding
    · -- a body of unknown size is chunked in both transmissions, whatever the application entered
      subst hc
      cases unknown : lengthField (r.sentStream b₁) with
      | none => simp [has_sentHeaders, ← length, unknown]
      | some n =>
        have known : lengthField (r.sentStream b₁) ≠ none := by
          rw [unknown]
          exact nofun
        have second := @has_transferEncoding s value b₂ (length ▸ known)
        exact (second.trans (hs.has_transferEncoding_iff known (coding.resolve_left known))).symm
    · exact hs.has_sentHeaders_iff type hl hc

end

end

/-! ### What a loss leaves -/

lemma produce_fields (n : Nat) (r : HttpRequest) :
    (r.produce n).uri = r.uri ∧ (r.produce n).method = r.method ∧
      (r.produce n).headers = r.headers ∧ (r.produce n).bodyStream = r.bodyStream := by
  induction n generalizing r with
  | zero => exact ⟨rfl, rfl, rfl, rfl⟩
  | succ n ih =>
    have step : r.multipartProducer.2.uri = r.uri ∧ r.multipartProducer.2.method = r.method ∧
        r.multipartProducer.2.headers = r.headers ∧
        r.multipartProducer.2.bodyStream = r.bodyStream := by
      rw [multipartProducer]
      repeat' split
      all_goals exact ⟨rfl, rfl, rfl, rfl⟩
    obtain ⟨uri, method, headers, stream⟩ := ih r.multipartProducer.2
    rw [produce, uri, method, headers, stream]
    exact step

lemma parts_multipartProducer (r : HttpRequest) : r.multipartProducer.2.parts = r.parts.tail := by
  rw [multipartProducer]
  split
  case h_1 name file rest e => simp [parts, HashMap.remove, e]
  case h_2 e =>
    split
    case h_1 name value rest e' => simp [parts, HashMap.remove, e, e']
    case h_2 e' => simp [parts, e, e']

lemma parts_produce (n : Nat) (r : HttpRequest) : (r.produce n).parts = r.parts.drop n := by
  induction n generalizing r with
  | zero => rfl
  | succ n ih => rw [produce, ih, parts_multipartProducer, drop_tail]

lemma content_length_pos (part : HttpPartResult) (boundary : String) : 0 < (part.content boundary).length := by
  simp only [HttpPartResult.content, bytes, List.length_append, List.length_map, String.length_toList,
    String.length_append]
  have : "\r\n--".length = 4 := by decide
  omega

lemma length_multipartContent_drop {boundary : String} {parts : List HttpPartResult} {n : Nat}
    (hn : n ≠ 0) (hp : parts ≠ []) :
    (multipartContent boundary (parts.drop n)).length < (multipartContent boundary parts).length := by
  cases parts with
  | nil => exact absurd rfl hp
  | cons part rest =>
    obtain ⟨m, rfl⟩ := Nat.exists_eq_succ_of_ne_zero hn
    have split : rest.flatMap (HttpPartResult.content · boundary) =
        (rest.take m).flatMap (HttpPartResult.content · boundary) ++
          (rest.drop m).flatMap (HttpPartResult.content · boundary) := by
      rw [← flatMap_append, take_append_drop]
    have pos := content_length_pos part boundary
    simp only [multipartContent, drop_succ_cons, flatMap_cons, split, List.length_append]
    omega

section
variable {r : HttpRequest} {b₁ b₂ : String} {loss : Loss}

lemma startBody_eq (s : HttpRequest) :
    s.startBody = { s with
      headers := if s.bodyStream.isSome then s.headers.touch .transferEncoding else s.headers
      bodyStream := none } := by
  obtain ⟨_, _, _, _, _, stream, _⟩ := s
  cases stream <;> rfl

def touched (r : HttpRequest) (b : String) : Loss → Bool
  | .inHeaders => false
  | .inBody _ => (r.sentStream b).isSome

lemma afterLoss_inBody (n : Nat) :
    (r.afterLoss b₁ (.inBody n)).uri = r.uri ∧ (r.afterLoss b₁ (.inBody n)).method = r.method ∧
      (r.afterLoss b₁ (.inBody n)).headers =
        (if (r.sentStream b₁).isSome then (r.sentHeaders b₁).touch .transferEncoding else r.sentHeaders b₁) ∧
      (r.afterLoss b₁ (.inBody n)).bodyStream = none := by
  rw [afterLoss, startBody_eq]
  split
  · exact produce_fields n _
  · exact ⟨rfl, rfl, rfl, rfl⟩

lemma afterLoss_requestLine : (r.afterLoss b₁ loss).requestLine = r.requestLine := by
  cases loss with
  | inHeaders => rfl
  | inBody n =>
    obtain ⟨uri, method, -, -⟩ := @afterLoss_inBody r b₁ n
    rw [requestLine, requestLine, uri, method]

lemma afterLoss_inherits : (r.afterLoss b₁ loss).Inherits r b₁ (r.touched b₁ loss) := by
  cases loss with
  | inHeaders => rfl
  | inBody n => exact (afterLoss_inBody n).2.2.1

lemma afterLoss_bodyStream :
    (r.afterLoss b₁ loss).bodyStream = if loss = .inHeaders then r.sentStream b₁ else none := by
  cases loss with
  | inHeaders => rfl
  | inBody n => exact (afterLoss_inBody n).2.2.2

lemma afterLoss_form (h : 0 < r.files.count → loss = .inHeaders ∨ loss = .inBody 0) :
    (r.afterLoss b₁ loss).files = r.files ∧ (r.afterLoss b₁ loss).postParams = r.postParams := by
  cases loss with
  | inHeaders => exact ⟨rfl, rfl⟩
  | inBody n =>
    rw [afterLoss, startBody_eq]
    split
    case isTrue files =>
      obtain none | zero := h files
      · cases none
      · cases zero
        exact ⟨rfl, rfl⟩
    case isFalse => exact ⟨rfl, rfl⟩

lemma afterLoss_parts (h : 0 < r.files.count) (n : Nat) : (r.afterLoss b₁ (.inBody n)).parts = r.parts.drop n := by
  rw [afterLoss, startBody_eq]
  exact (congrArg parts (if_pos h)).trans (parts_produce n _)

lemma form_congr {s : HttpRequest} (files : s.files = r.files) (params : s.postParams = r.postParams)
    (b : String) : s.form b = r.form b := by
  rw [form, form, files, params]

lemma parts_congr {s : HttpRequest} (files : s.files = r.files)
    (params : s.postParams = r.postParams) : s.parts = r.parts := by
  rw [parts, parts, files, params]

/-- The condition under which the second transmission repeats the first one. -/
def Repeatable (r : HttpRequest) (b₁ b₂ : String) (loss : Loss) : Prop :=
  if 0 < r.files.count then b₁ = b₂ ∧ (loss = .inHeaders ∨ loss = .inBody 0)
  else if 0 < r.postParams.count then loss = .inHeaders ∨ r.headers.contains .transferEncoding = true
  else
    match r.bodyStream with
    | none => True
    | some stream =>
      loss = .inHeaders ∨ (stream.available = some 0 ∧
        r.headers.contains .transferEncoding = true ∧
        r.headers.fields.value .transferEncoding "" ≠ "chunked")

variable {stream : BodyStream} {b : String}

lemma body_transmit (b : String) :
    (r.transmit b).body = (r.sentStream b).elim {} fun stream =>
      ⟨(r.sentHeaders b).fields.value .transferEncoding "" == "chunked", stream.content r⟩ := by
  rw [transmit, sentBody, show (r.sendRequestHeaders b).bodyStream = r.sentStream b from rfl]
  cases r.sentStream b with
  | none => rfl
  | some stream => cases stream <;> rfl

lemma value_sentHeaders (known : lengthField (r.sentStream b) ≠ none)
    (present : r.headers.contains .transferEncoding = true) :
    (r.sentHeaders b).fields.value .transferEncoding "" = r.headers.fields.value .transferEncoding "" := by
  obtain ⟨v, hv⟩ := HttpHeaders.contains_iff.mp present
  have sent : (r.sentHeaders b).Has .transferEncoding v := by
    simpa [has_sentHeaders, known] using hv
  rw [HashMap.value_of_mem hv, HashMap.value_of_mem sent]

lemma transmit_equiv_of_stream (h₁ : r.sentStream b₁ = some stream)
    (h₂ : (r.afterLoss b₁ loss).sentStream b₂ = some stream)
    (content : stream.content (r.afterLoss b₁ loss) = stream.content r)
    (headers : (r.sentHeaders b₁).Equiv ((r.afterLoss b₁ loss).sentHeaders b₂)) :
    (r.transmit b₁).Equiv ((r.afterLoss b₁ loss).transmit b₂) := by
  refine ⟨afterLoss_requestLine.symm, headers, ?_⟩
  rw [body_transmit, body_transmit, h₁, h₂, elim_some, elim_some, content, headers.value_eq]

lemma files_of_lengthField (files : 0 < r.files.count)
    (length : none = lengthField ((r.afterLoss b₁ loss).sentStream b₂)) : 0 < (r.afterLoss b₁ loss).files.count := by
  by_contra none
  rw [sentStream, form, if_neg none] at length
  split at length
  case h_1 e =>
    split at e
    · cases e
      exact absurd length nofun
    · cases e
  case h_2 =>
    rw [afterLoss_bodyStream] at length
    split at length
    case isTrue inHeaders =>
      subst inHeaders
      exact none files
    case isFalse => exact absurd length nofun

lemma parts_ne_nil (files : 0 < r.files.count) : r.parts ≠ [] := by
  intro e
  have none := (append_eq_nil_iff.mp e).1
  rw [map_eq_nil_iff] at none
  rw [HashMap.count, none] at files
  exact absurd files (Nat.lt_irrefl _)

lemma transmit_equiv_iff_of_files (files : 0 < r.files.count) :
    (r.transmit b₁).Equiv ((r.afterLoss b₁ loss).transmit b₂) ↔
      b₁ = b₂ ∧ (loss = .inHeaders ∨ loss = .inBody 0) := by
  have form₁ : r.form b₁ = some ("multipart/form-data; boundary=" ++ b₁, .multipart b₁) := by
    rw [form, if_pos files]
  have stream₁ : r.sentStream b₁ = some (.multipart b₁) := by rw [sentStream, form₁]
  have heads := @Inherits.equiv_iff r (r.afterLoss b₁ loss) b₁ b₂ _ afterLoss_inherits
    (fun none => absurd (form₁.symm.trans none) nofun)
  rw [stream₁, form₁] at heads
  constructor
  · rintro ⟨-, equiv, body⟩
    obtain ⟨length, type, -⟩ := heads.mp equiv
    have still := files_of_lengthField files length
    have form₂ : (r.afterLoss b₁ loss).form b₂ =
        some ("multipart/form-data; boundary=" ++ b₂, .multipart b₂) := by
      rw [form, if_pos still]
    -- the content type of the form carries the boundary
    have same : b₁ = b₂ := (String.append_right_inj _).mp (Option.some.inj (type _ form₂))
    refine ⟨same, ?_⟩
    cases loss with
    | inHeaders => exact .inl rfl
    | inBody n =>
      refine .inr (congrArg Loss.inBody ?_)
      by_contra hn
      have stream₂ : (r.afterLoss b₁ (.inBody n)).sentStream b₂ = some (.multipart b₂) := by
        rw [sentStream, form₂]
      have contents : multipartContent b₁ r.parts = multipartContent b₁ (r.parts.drop n) := by
        rw [body_transmit, body_transmit, stream₁, stream₂, elim_some, elim_some, BodyStream.content,
          BodyStream.content, afterLoss_parts files, ← same] at body
        exact congrArg Body.content body
      exact absurd (congrArg List.length contents)
        (Nat.ne_of_gt (length_multipartContent_drop hn (parts_ne_nil files)))
  · rintro ⟨rfl, point⟩
    obtain ⟨hf, hp⟩ := @afterLoss_form r b₁ loss fun _ => point
    have form₂ := (form_congr hf hp b₁).trans form₁
    have stream₂ : (r.afterLoss b₁ loss).sentStream b₁ = some (.multipart b₁) := by
      rw [sentStream, form₂]
    refine transmit_equiv_of_stream stream₁ stream₂ ?_ (heads.mpr ⟨?_, ?_, .inl rfl⟩)
    · rw [BodyStream.content, BodyStream.content, parts_congr hf hp]
    · rw [stream₂]
    · intro f e
      cases form₂.symm.trans e
      rfl

lemma transmit_equiv_iff_of_params (files : ¬ 0 < r.files.count) (params : 0 < r.postParams.count) :
    (r.transmit b₁).Equiv ((r.afterLoss b₁ loss).transmit b₂) ↔
      loss = .inHeaders ∨ r.headers.contains .transferEncoding = true := by
  obtain ⟨hf, hp⟩ := @afterLoss_form r b₁ loss fun h => absurd h files
  have form₁ : ∀ b, r.form b = some ("application/x-www-form-urlencoded", .urlencoded r.postParams) := by
    intro b
    rw [form, if_neg files, if_pos params]
  have form₂ := (form_congr hf hp b₂).trans (form₁ b₂)
  have stream₁ : r.sentStream b₁ = some (.urlencoded r.postParams) := by rw [sentStream, form₁]
  have stream₂ : (r.afterLoss b₁ loss).sentStream b₂ = some (.urlencoded r.postParams) := by
    rw [sentStream, form₂]
  have heads := @Inherits.equiv_iff r (r.afterLoss b₁ loss) b₁ b₂ _ afterLoss_inherits
    (fun none => absurd ((form₁ b₁).symm.trans none) nofun)
  rw [stream₁, stream₂, form₁, form₂] at heads
  have point : r.touched b₁ loss = false ↔ loss = .inHeaders := by
    cases loss with
    | inHeaders => exact iff_of_true rfl rfl
    | inBody n => simp [touched, stream₁]
  rw [← point]
  constructor
  · rintro ⟨-, equiv, -⟩
    obtain ⟨-, -, coding⟩ := heads.mp equiv
    exact coding.resolve_left nofun
  · intro coding
    refine transmit_equiv_of_stream stream₁ stream₂ rfl (heads.mpr ⟨rfl, ?_, .inr coding⟩)
    rintro f ⟨⟩
    rfl

lemma available_eq_zero (length : lengthField (some stream) = lengthField none)
    (empty : stream.content r = []) : stream.available = some 0 := by
  -- a size that is not known would be sent without `Content-Length`
  have known : stream.available ≠ none := by
    intro unknown
    have missing : lengthField (some stream) = none := by
      rw [lengthField, unknown]
      rfl
    cases missing.symm.trans length
  obtain ⟨m, hm⟩ := ne_none_iff_exists'.mp known
  rw [hm, ← BodyStream.length_content hm, empty]
  rfl

lemma transmit_equiv_iff_of_gone {n : Nat} (stream₁ : r.sentStream b₁ = some stream)
    (gone : (r.afterLoss b₁ (.inBody n)).sentStream b₂ = none)
    (noForm : (r.afterLoss b₁ (.inBody n)).form b₂ = none) :
    (r.transmit b₁).Equiv ((r.afterLoss b₁ (.inBody n)).transmit b₂) ↔
      stream.available = some 0 ∧ r.headers.contains .transferEncoding = true ∧
        r.headers.fields.value .transferEncoding "" ≠ "chunked" := by
  have heads := @Inherits.equiv_iff r (r.afterLoss b₁ (.inBody n)) b₁ b₂ _ afterLoss_inherits
    (fun _ => noForm)
  rw [stream₁, gone, noForm] at heads
  have body_iff : (r.transmit b₁).body = ((r.afterLoss b₁ (.inBody n)).transmit b₂).body ↔
      (r.sentHeaders b₁).fields.value .transferEncoding "" ≠ "chunked" ∧ stream.content r = [] := by
    rw [body_transmit, body_transmit, stream₁, gone, elim_some, elim_none, Body.mk.injEq, beq_eq_false_iff_ne]
  constructor
  · rintro ⟨-, equiv, body⟩
    obtain ⟨length, -, coding⟩ := heads.mp equiv
    obtain ⟨other, empty⟩ := body_iff.mp body
    have hm := available_eq_zero length empty
    have present : r.headers.contains .transferEncoding = true := by
      obtain unknown | untouched | present := coding
      · rw [lengthField, hm] at unknown
        cases unknown
      · rw [touched, stream₁] at untouched
        cases untouched
      · exact present
    rw [value_sentHeaders (by rw [stream₁, length]; exact some_ne_none _) present] at other
    exact ⟨hm, present, other⟩
  · rintro ⟨hm, present, other⟩
    have length : lengthField (some stream) = some "0" := by
      rw [lengthField, hm]
      rfl
    refine ⟨afterLoss_requestLine.symm, heads.mpr ⟨length, fun f mem => (by cases mem), .inr (.inr present)⟩,
      body_iff.mpr ⟨?_, eq_nil_of_length_eq_zero (BodyStream.length_content hm)⟩⟩
    rwa [value_sentHeaders (by rw [stream₁, length]; exact some_ne_none _) present]

lemma transmit_equiv_iff_of_stream (files : ¬ 0 < r.files.count) (params : ¬ 0 < r.postParams.count) :
    (r.transmit b₁).Equiv ((r.afterLoss b₁ loss).transmit b₂) ↔
      match r.bodyStream with
      | none => True
      | some stream =>
        loss = .inHeaders ∨ (stream.available = some 0 ∧ r.headers.contains .transferEncoding = true ∧
          r.headers.fields.value .transferEncoding "" ≠ "chunked") := by
  obtain ⟨hf, hp⟩ := @afterLoss_form r b₁ loss fun h => absurd h files
  have form₁ : ∀ b, r.form b = none := by
    intro b
    rw [form, if_neg files, if_neg params]
  have form₂ := (form_congr hf hp b₂).trans (form₁ b₂)
  have stream₁ : r.sentStream b₁ = r.bodyStream := by rw [sentStream, form₁]
  have stream₂ : (r.afterLoss b₁ loss).sentStream b₂ = if loss = .inHeaders then r.bodyStream else none := by
    rw [sentStream, form₂]
    exact afterLoss_bodyStream.trans (by rw [stream₁])
  have heads := @Inherits.equiv_iff r (r.afterLoss b₁ loss) b₁ b₂ _ afterLoss_inherits
    (fun _ => form₂)
  rw [stream₁, stream₂, form₁, form₂] at heads
  cases hs : r.bodyStream with
  | none =>
    rw [hs] at stream₁ stream₂ heads
    rw [ite_self] at stream₂ heads
    have untouched : r.touched b₁ loss = false := by
      cases loss with
      | inHeaders => rfl
      | inBody n => rw [touched, stream₁]; rfl
    refine iff_of_true ⟨afterLoss_requestLine.symm, ?_, ?_⟩ trivial
    · exact heads.mpr ⟨rfl, nofun, .inr (.inl untouched)⟩
    · rw [body_transmit, body_transmit, stream₁, stream₂, elim_none, elim_none]
  | some stream =>
    rw [hs] at stream₁ stream₂ heads
    cases loss with
    | inHeaders =>
      refine iff_of_true ?_ (.inl rfl)
      refine transmit_equiv_of_stream stream₁ stream₂ ?_ (heads.mpr ⟨rfl, nofun, .inr (.inl rfl)⟩)
      cases stream <;> rfl
    | inBody n =>
      have gone : (r.afterLoss b₁ (.inBody n)).sentStream b₂ = none := stream₂
      rw [transmit_equiv_iff_of_gone stream₁ gone form₂]
      exact (or_iff_right nofun).symm

/-- A request that is sent again after its connection was lost is sent as the first time exactly
under the condition `Repeatable`. -/
theorem transmit_equiv_iff (r : HttpRequest) (b₁ b₂ : String) (loss : Loss) :
    (r.transmit b₁).Equiv ((r.afterLoss b₁ loss).transmit b₂) ↔ r.Repeatable b₁ b₂ loss := by
  rw [Repeatable]
  split
  case isTrue files => exact transmit_equiv_iff_of_files files
  case isFalse files =>
    split
    case isTrue params => exact transmit_equiv_iff_of_params files params
    case isFalse params => exact transmit_equiv_iff_of_stream files params

/-- A body of two bytes is gone when its request is sent again. -/
theorem second_transmission_without_body :
    ¬ ∀ (r : HttpRequest) (b₁ b₂ : String) (loss : Loss),
      (r.transmit b₁).Equiv ((r.afterLoss b₁ loss).transmit b₂) := by
  intro h
  obtain ⟨-, -, body⟩ := h
    { method := .post, bodyStream := some (.source { content := [104, 105], known := true }) }
    "" "" (.inBody 0)
  exact absurd body (by decide)

end

end HttpRequest

end Sming.Network.Http
