import PlanReview.Proofs.Chat.Replies
import PlanReview.Proofs.Redact.Survival

/-!
# What a failure tells of the key

The failure over a response tells the first 200 characters of its body, without the key. But the
body is cut before the key is looked for, and tokens are removed from it before. Of an occurrence
that is broken in this way the failure tells the rest, and of no other occurrence anything
(`failure_tells_iff`). Where there are no tokens, that is the beginning of the occurrence that the
cut goes through (`mem_places_placedFailure_of_cut`). Both ways to fail are alike in this, though
the text after the last attempt is redacted twice.
-/

namespace PlanReview.Chat.Client

open Redact (IsApart IsBearer IsKey PlacedText)
open Redact.PlacedText (OccursApart inserted notMem_inserted places_append places_inserted
  standing stitched_tokens text_append text_inserted text_redact)

variable {c : Client} {transport : Transport} {messages : List Message} {response : HttpResponse}
  {a i : Nat}

/-! ## The text of a failure -/

/-- As much of a body as is told, every character at its place. -/
def excerpt (response : HttpResponse) : PlacedText :=
  standing 0 (response.text.toList.take 200)

/-- The places of a body that are left by the cut and by the removal of tokens and keys. -/
def leftPlaces (response : HttpResponse) : List Nat :=
  (excerpt response).tokens.places

/-- What is told of a body, with the places of the characters. -/
def placedDetail (c : Client) (response : HttpResponse) : PlacedText :=
  (excerpt response).redact c.apiKey

/-- The text of the failure over a response, with the places that the characters have in its
body. -/
def placedFailure (c : Client) (response : HttpResponse) : PlacedText :=
  if isRetryable response.status then
    inserted ("OpenAI-compatible request failed after " ++ toString maxAttempts ++
      " attempts: ").toList ++
        (inserted ("Retryable error " ++ toString response.status ++ ": ").toList ++
          c.placedDetail response).redact c.apiKey
  else
    inserted ("Request rejected with " ++ toString response.status ++ ": ").toList ++
      c.placedDetail response

theorem text_placedDetail (c : Client) (response : HttpResponse) :
    (c.placedDetail response).text = (c.detail response).toList := by
  rw [placedDetail, text_redact, excerpt, PlacedText.text_standing]
  rfl

theorem text_placedFailure_of_retryable (hretry : isRetryable response.status = true) :
    String.ofList (c.placedFailure response).text =
      "OpenAI-compatible request failed after " ++ toString maxAttempts ++ " attempts: " ++
        c.redacted ("Retryable error " ++ toString response.status ++ ": " ++
          c.detail response) := by
  rw [placedFailure, if_pos hretry, text_append, text_inserted, text_redact,
    text_append, text_inserted, text_placedDetail, String.ofList_append,
    String.ofList_toList, String.ofList_toList, String.ofList_append, String.ofList_toList,
    String.ofList_toList]
  rfl

theorem text_placedFailure_of_not (hretry : isRetryable response.status = false) :
    String.ofList (c.placedFailure response).text =
      "Request rejected with " ++ toString response.status ++ ": " ++ c.detail response := by
  rw [placedFailure, if_neg (Bool.eq_false_iff.1 hretry), text_append, text_inserted,
    text_placedDetail, String.ofList_append, String.ofList_toList, String.ofList_toList]

/-- A conversation fails over a response that rejects the request, and over the last response if
all of them ask for another attempt. -/
inductive FailsOver (c : Client) (transport : Transport) (messages : List Message)
    (response : HttpResponse) : Prop where
  | rejected {url : String} {n : Nat} : c.url = .ok url → (c.payload messages).isFinite = true →
      EndsAt transport (c.request url messages) n response → ¬ response.status < 400 →
      FailsOver c transport messages response
  | givenUp {url : String} : c.url = .ok url → (c.payload messages).isFinite = true →
      (∀ n < maxAttempts, Retries (transport n (c.request url messages))) →
      transport (maxAttempts - 1) (c.request url messages) = .ok response →
      FailsOver c transport messages response

/-- The failure has the text of which the places are known. -/
theorem FailsOver.reply_eq (h : c.FailsOver transport messages response) :
    (c.converse transport messages).reply =
      .error (.chat (String.ofList (c.placedFailure response).text)) := by
  cases h with
  | rejected hurl hfinite hends hstatus =>
    have hretry : isRetryable response.status = false := by
      rw [Bool.eq_false_iff]
      exact fun hretry => hends.final ⟨hstatus, hretry⟩
    have hjudge : c.judge (.ok response) = .ended (.error (.chat ("Request rejected with " ++
        toString response.status ++ ": " ++ c.detail response))) :=
      (if_neg hstatus).trans (if_neg (Bool.eq_false_iff.1 hretry))
    rw [text_placedFailure_of_not hretry]
    exact Attempt.ended.inj ((hends.judge_eq hurl hfinite).symm.trans hjudge)
  | @givenUp url hurl hfinite hall hlast =>
    have hretries := hall (maxAttempts - 1) (by decide)
    rw [hlast] at hretries
    rw [text_placedFailure_of_retryable hretries.2, converse_of_url hurl hfinite]
    rcases c.attempts_cases transport (c.request url messages) 0 (maxAttempts - 1) with
      ⟨n, other, -, hn, -, hanswer, hfinal, -⟩ | ⟨-, reason, hjudge, hreply⟩
    · have hretries := hall n (Nat.lt_of_le_of_lt hn (by decide))
      rw [hanswer] at hretries
      exact absurd hretries hfinal
    · rw [Nat.zero_add, hlast, judge, if_neg hretries.1, if_pos hretries.2] at hjudge
      rw [hreply, ← Attempt.failed.inj hjudge]
      rfl

/-! ## What is told of the key -/

theorem stitched_excerpt (response : HttpResponse) :
    PlacedText.Stitched response.text.toList 0 (excerpt response).tokens :=
  stitched_tokens (.of_standing (List.take_prefix 200 response.text.toList))

/-- The reason for another attempt begins with words in which no token begins, and a blank. -/
theorem exists_words (status : Int) : ∃ s, 'B' ∉ s ∧ 's' ∉ s ∧
    ("Retryable error " ++ toString status ++ ": ").toList = s ++ [' '] := by
  have hnot {d : Char} (hword : d ∉ "Retryable error ".toList) (hdigit : d.isDigit = false)
      (hdash : d ≠ '-') (hcolon : d ≠ ':') :
      d ∉ "Retryable error ".toList ++ (toString status).toList ++ [':'] := by
    simp only [List.mem_append, List.mem_singleton, not_or]
    exact ⟨⟨hword, Json.notMem_toString hdigit hdash _⟩, hcolon⟩
  refine ⟨_, hnot (by decide) (by decide) (by decide) (by decide),
    hnot (by decide) (by decide) (by decide) (by decide), ?_⟩
  rw [String.toList_append, String.toList_append, List.append_assoc _ [':']]
  rfl

/-- A character with a place is the one that stands there in the body. -/
theorem getElem?_of_mem_placedFailure {d : Char} (h : (d, some i) ∈ c.placedFailure response) :
    response.text.toList[i]? = some d := by
  have hdetail (h : (d, some i) ∈ c.placedDetail response) : response.text.toList[i]? = some d :=
    (stitched_excerpt response).getElem?_eq (PlacedText.mem_of_mem_hide h)
  rw [placedFailure] at h
  split at h
  · obtain ⟨s, hB, hs, hreason⟩ := exists_words response.status
    have hmem := PlacedText.mem_of_mem_hide ((List.mem_append.1 h).resolve_left notMem_inserted)
    rw [hreason, placedDetail, PlacedText.tokens_inserted_append (by simpa using hB)
      (by simpa using hs)] at hmem
    exact hdetail ((List.mem_append.1 hmem).resolve_left notMem_inserted)
  · exact hdetail ((List.mem_append.1 h).resolve_left notMem_inserted)

/-- What survives of the body in the text of the failure is what survives in its detail. -/
theorem mem_places_placedFailure (hkey : IsApart c.apiKey.toList)
    (hblank : isRetryable response.status = true → ' ' ∉ c.apiKey.toList)
    (hapart : OccursApart c.apiKey.toList response.text.toList) :
    i ∈ (c.placedFailure response).places ↔ i ∈ (c.placedDetail response).places := by
  rw [placedFailure]
  split
  · rename_i hretry
    obtain ⟨s, hB, hs, hreason⟩ := exists_words response.status
    rw [places_append, places_inserted, List.nil_append, hreason]
    exact PlacedText.mem_places_redact_again (stitched_excerpt response) hkey (hblank hretry) hapart
      hB hs
  · rw [places_append, places_inserted, List.nil_append]

/-- A character of an occurrence of the key is told exactly if the cut and the removal of tokens
leave this character, but not the occurrence as a whole. -/
theorem mem_places_placedFailure_iff (hkey : IsApart c.apiKey.toList)
    (hblank : isRetryable response.status = true → ' ' ∉ c.apiKey.toList)
    (hapart : OccursApart c.apiKey.toList response.text.toList)
    (hoccurs : c.apiKey.toList <+: response.text.toList.drop a) (hi : a ≤ i)
    (hi' : i < a + c.apiKey.toList.length) : i ∈ (c.placedFailure response).places ↔
      i ∈ leftPlaces response ∧
        ∃ j, a ≤ j ∧ j < a + c.apiKey.toList.length ∧ j ∉ leftPlaces response := by
  rw [mem_places_placedFailure hkey hblank hapart]
  exact PlacedText.mem_places_hide_iff (stitched_excerpt response) hkey hapart hoccurs hi hi'

/-- Where no tokens are told, only the cut decides : the failure tells the beginning of an
occurrence that the cut goes through. -/
theorem mem_places_placedFailure_of_cut (hkey : IsApart c.apiKey.toList)
    (hblank : isRetryable response.status = true → ' ' ∉ c.apiKey.toList)
    (hapart : OccursApart c.apiKey.toList response.text.toList)
    (htokens : ∀ m, IsBearer m ∨ IsKey m → ¬m <:+: response.text.toList.take 200)
    (hoccurs : c.apiKey.toList <+: response.text.toList.drop a) (hi : a ≤ i)
    (hi' : i < a + c.apiKey.toList.length) : i ∈ (c.placedFailure response).places ↔
      i < 200 ∧ 200 < a + c.apiKey.toList.length := by
  have hlength := hoccurs.length_le
  rw [List.length_drop] at hlength
  have hleft {j : Nat} (hj : j < a + c.apiKey.toList.length) :
      j ∈ leftPlaces response ↔ j < 200 := by
    rw [leftPlaces, PlacedText.tokens_eq_self (by rwa [excerpt, PlacedText.text_standing]), excerpt,
      PlacedText.mem_places_standing_iff, List.length_take]
    omega
  rw [mem_places_placedFailure_iff hkey hblank hapart hoccurs hi hi', hleft hi',
    and_congr_right_iff]
  intro hcut
  constructor
  · rintro ⟨j, -, hj, hout⟩
    rw [hleft hj] at hout
    omega
  · intro hlong
    have hlast : a + c.apiKey.toList.length - 1 < a + c.apiKey.toList.length := by omega
    refine ⟨_, by omega, hlast, ?_⟩
    rw [hleft hlast]
    omega

/-- A conversation that fails over a response comes to a failure with a placed text, in which every
character with a place is the one that stands there in the body. A character of an occurrence of the
key is told exactly if the cut and the removal of tokens leave this character, but not the
occurrence as a whole. -/
theorem failure_tells_iff (hfails : c.FailsOver transport messages response)
    (hkey : IsApart c.apiKey.toList)
    (hblank : isRetryable response.status = true → ' ' ∉ c.apiKey.toList)
    (hapart : OccursApart c.apiKey.toList response.text.toList) :
    (c.converse transport messages).reply =
      .error (.chat (String.ofList (c.placedFailure response).text)) ∧
    (∀ d i, (d, some i) ∈ c.placedFailure response → response.text.toList[i]? = some d) ∧
    ∀ a, c.apiKey.toList <+: response.text.toList.drop a → ∀ i, a ≤ i →
      i < a + c.apiKey.toList.length → (i ∈ (c.placedFailure response).places ↔
        i ∈ leftPlaces response ∧
          ∃ j, a ≤ j ∧ j < a + c.apiKey.toList.length ∧ j ∉ leftPlaces response) :=
  ⟨hfails.reply_eq, fun _ _ => getElem?_of_mem_placedFailure,
    fun _ hoccurs _ => mem_places_placedFailure_iff hkey hblank hapart hoccurs⟩

/-- A client whose key holds what looks like another key. -/
def taskClient : Client where
  baseUrl := "https://example.com/v1"
  apiKey := "task-42.prod"
  model := "demo"

/-- An answer that repeats this key. -/
def denial : HttpResponse where
  status := 401
  body := .text "denied for task-42.prod"

theorem failsOver_denial : taskClient.FailsOver (fun _ _ => .ok denial) [] denial :=
  .rejected (n := 0) rfl rfl ⟨by decide, nofun, rfl, fun h => absurd h.2 (by decide)⟩ (by decide)

/-- The key stands in the answer once. -/
theorem eq_eleven_of_denial {a : Nat}
    (h : taskClient.apiKey.toList <+: denial.text.toList.drop a) : a = 11 := by
  have hlt : a < 24 := by
    by_contra hle
    rw [List.drop_eq_nil_of_le (Nat.not_lt.1 hle |>.trans' (by decide))] at h
    exact absurd (List.prefix_nil.1 h) (by decide)
  have hall : ∀ a < 24, taskClient.apiKey.toList <+: denial.text.toList.drop a → a = 11 := by
    decide
  exact hall a hlt h

/-- The failure tells how the key begins. -/
theorem failure_tells_of_denial : taskClient.FailsOver (fun _ _ => .ok denial) [] denial ∧
    IsApart taskClient.apiKey.toList ∧
    OccursApart taskClient.apiKey.toList denial.text.toList ∧
    taskClient.apiKey.toList <+: denial.text.toList.drop 11 ∧
    11 ∈ (taskClient.placedFailure denial).places := by
  have hkey : IsApart taskClient.apiKey.toList := ⟨by decide, by decide, by decide⟩
  have hapart : OccursApart taskClient.apiKey.toList denial.text.toList := fun a b ha hb hlt => by
    rw [eq_eleven_of_denial ha, eq_eleven_of_denial hb] at hlt
    exact absurd hlt (Nat.lt_irrefl _)
  have hoccurs : taskClient.apiKey.toList <+: denial.text.toList.drop 11 := by decide
  obtain ⟨-, -, htells⟩ := failure_tells_iff failsOver_denial hkey
    (fun hretry => absurd hretry (by decide)) hapart
  refine ⟨failsOver_denial, hkey, hapart, hoccurs, ?_⟩
  exact (htells 11 hoccurs 11 (by decide) (by decide)).2 ⟨by decide, 13, by decide⟩

/-- What the failure says, where it should say nothing of the key. -/
theorem converse_of_denial : (taskClient.converse (fun _ _ => .ok denial) []).reply =
    .error (.chat "Request rejected with 401: denied for ta[REDACTED].prod") := by
  have htext : String.ofList (taskClient.placedFailure denial).text =
      "Request rejected with 401: denied for ta[REDACTED].prod" := by
    decide
  rw [failsOver_denial.reply_eq, htext]

end PlanReview.Chat.Client
