-- SUMMARY: Every answer of the server is told apart by its status and by what its body is.
import DocQuery.Gateway.Server
import DocQuery.Proofs.Json.Body

/-!
# Answers of the server

A body is an object, another document, or no document at all, and a status is one of an error or
not. Each answer comes to the one outcome that these say. A status of an error is never lost:
whatever the body is, the error names the status. Below it only a body that is no document ends
in an error of reading.
-/

namespace DocQuery

open Json (HasMembers IsDocument IsElement IsWithinLimits Member entries lastMember mapping
  ofPoints_beq ofPoints_ofText readBytes)
open Text (CodePoint bytesOf)
open Text.CodePoint (ofText)

/-- A call takes the reply that stands first. -/
theorem Replies.next_fst {α : Type} (r : Replies α) : r.next.1 = r.current := by
  unfold Replies.next
  split <;> rfl

namespace ServerReply

variable {status : Int} {body : String} {v : Value} {ms : List Member}
  {es : List (Value × Value)}

/-! ## What an answer comes to -/

/-- The message of an error that is an object: its own, or else the text of the object. -/
inductive IsDetail (ms : List Member) : Value → Prop
  | given (h : (lastMember ms "error").isGiven = true) : IsDetail ms (lastMember ms "error")
  | written {s : String} (h : (lastMember ms "error").isGiven = false)
    (hs : Json.compact (mapping (Assoc.ofPairs ms)) = .ok s) : IsDetail ms (.text s)

/-- What a status and a body come to. -/
inductive IsOutcome (status : Int) (body : String) : Except Error (List Value) → Prop
  /-- An error that is told by an object. -/
  | failed {ms : List Member} {detail : Value} (hstatus : 400 ≤ status) (h : HasMembers body ms)
    (hdetail : IsDetail ms detail) :
    IsOutcome status body (.error (.remote (.int status) (lastMember ms "code") detail))
  /-- An error that is told by any other body, a document or not. -/
  | failedPlain (hstatus : 400 ≤ status) (h : ∀ ms, ¬HasMembers body ms) :
    IsOutcome status body (.error (.remote (.int status) .null (.text body)))
  | rows {ms : List Member} {rows : List Value} (hstatus : status < 400) (h : HasMembers body ms)
    (hrows : lastMember ms "results" = .list rows) : IsOutcome status body (.ok rows)
  /-- A document of another shape. -/
  | unfit {v : Value} (hstatus : status < 400) (h : IsDocument body v)
    (hother : ∀ ms rows, HasMembers body ms → lastMember ms "results" ≠ .list rows) :
    IsOutcome status body
      (.error (.remote (.int status) .null (.text "response missing 'results'")))
  /-- A text that is no document. -/
  | malformed {ps : List CodePoint} (hstatus : status < 400)
    (hps : Json.decode? (bytesOf body) = some ps) (h : ∀ v, ¬IsElement ps v) :
    IsOutcome status body (.error .malformedJson)
  /-- A body without a text. -/
  | undecodable (hstatus : status < 400) (h : Json.decode? (bytesOf body) = none) :
    IsOutcome status body (.error .undecodable)

/-! ## Members -/

/-- The entry of a mapping under a name is the last member with the name. -/
theorem getD_entries (ms : List Member) (name : String) :
    Value.getD (entries (Assoc.ofPairs ms)) name = lastMember ms name := by
  have hfind : Assoc.find? (Value.text name) (entries (Assoc.ofPairs ms)) =
      Assoc.find? (Text.CodePoint.ofText name) ms.reverse := by
    rw [← ofPoints_ofText, ← Assoc.find?_ofPairs]
    refine (Assoc.find?_map ofPoints_beq id _ _).trans ?_
    rw [Option.map_id]
    rfl
  rw [Value.getD, hfind]
  rfl

theorem readBytes_of_hasMembers (hlimits : IsWithinLimits body) (h : HasMembers body ms) :
    readBytes (bytesOf body) = .ok (.map (entries (Assoc.ofPairs ms))) :=
  (Json.readBytes_eq_ok_iff hlimits).mpr h.isDocument

theorem exists_members_of_readBytes (hread : readBytes (bytesOf body) = .ok (.map es)) :
    ∃ ms, HasMembers body ms ∧ es = entries (Assoc.ofPairs ms) := by
  obtain ⟨ms, hms, heq⟩ := (Json.isDocument_of_readBytes hread).1.exists_hasMembers
  exact ⟨ms, hms, Value.map.inj heq⟩

/-! ## Details of errors -/

/-- A message can be made of every object that was read. -/
theorem exists_isDetail
    (hread : readBytes (bytesOf body) = .ok (.map (entries (Assoc.ofPairs ms)))) :
    ∃ detail, IsDetail ms detail := by
  cases hgiven : (lastMember ms "error").isGiven with
  | true => exact ⟨_, .given hgiven⟩
  | false =>
    obtain ⟨s, hs⟩ := (Json.isDocument_of_readBytes hread).2
    exact ⟨_, .written hgiven hs⟩

theorem errorDetail_of_object
    (hread : readBytes (bytesOf body) = .ok (.map (entries (Assoc.ofPairs ms)))) {detail : Value}
    (hdetail : IsDetail ms detail) : errorDetail body = .ok (lastMember ms "code", detail) := by
  simp only [errorDetail, hread, getD_entries]
  cases hdetail with
  | given h => rw [if_pos h]
  | written h hs =>
    rw [mapping] at hs
    rw [if_neg (Bool.eq_false_iff.mp h), hs]
    rfl

theorem errorDetail_of_not_object (hread : ∀ es, readBytes (bytesOf body) ≠ .ok (.map es))
    (hdepth : readBytes (bytesOf body) ≠ .error .tooDeep) :
    errorDetail body = .ok (.null, .text body) := by
  unfold errorDetail
  split
  · rename_i heq
    exact absurd heq hdepth
  · rename_i heq
    exact absurd heq (hread _)
  · rfl

theorem exists_errorDetail (hdepth : readBytes (bytesOf body) ≠ .error .tooDeep) :
    ∃ code detail, errorDetail body = .ok (code, detail) := by
  by_cases hobject : ∃ es, readBytes (bytesOf body) = .ok (.map es)
  · obtain ⟨es, hread⟩ := hobject
    obtain ⟨ms, hms, rfl⟩ := exists_members_of_readBytes hread
    obtain ⟨detail, hdetail⟩ := exists_isDetail hread
    exact ⟨_, _, errorDetail_of_object hread hdetail⟩
  · exact ⟨_, _, errorDetail_of_not_object (not_exists.mp hobject) hdepth⟩

/-! ## Rows -/

theorem rows_of_errorDetail (hstatus : 400 ≤ status) {code detail : Value}
    (h : errorDetail body = .ok (code, detail)) :
    (answer status body).rows = .error (.remote (.int status) code detail) := by
  have herror : errorStatus ≤ status := hstatus
  rw [rows, if_pos herror, h]
  rfl

theorem rows_of_lt (hstatus : status < 400) :
    (answer status body).rows = resultRows status body :=
  if_neg (Int.not_le.mpr hstatus)

theorem resultRows_of_rows {rows : List Value}
    (hread : readBytes (bytesOf body) = .ok (.map es))
    (hrows : Value.getD es "results" = .list rows) : resultRows status body = .ok rows := by
  simp only [resultRows, hread, bind, Except.bind, hrows]

theorem resultRows_of_not_rows (hread : readBytes (bytesOf body) = .ok v)
    (hother : ∀ es rows, v = .map es → Value.getD es "results" ≠ .list rows) :
    resultRows status body =
      .error (.remote (.int status) .null (.text "response missing 'results'")) := by
  simp only [resultRows, hread, bind, Except.bind]
  split
  · split
    · rename_i rows hrows
      exact absurd hrows (hother _ rows rfl)
    · rfl
  · rfl

theorem resultRows_of_error {e : Error} (hread : readBytes (bytesOf body) = .error e) :
    resultRows status body = .error e := by
  rw [resultRows, hread]
  rfl

/-! ## Outcomes -/

/-- The rules leave no choice: an outcome that they allow is the one of the answer. -/
theorem IsOutcome.rows_eq {outcome : Except Error (List Value)} (hlimits : IsWithinLimits body)
    (h : IsOutcome status body outcome) : (answer status body).rows = outcome := by
  cases h with
  | failed hstatus h hdetail =>
    exact rows_of_errorDetail hstatus
      (errorDetail_of_object (readBytes_of_hasMembers hlimits h) hdetail)
  | failedPlain hstatus h =>
    refine rows_of_errorDetail hstatus (errorDetail_of_not_object (fun es hread => ?_)
      fun hdepth => hlimits _ hdepth .depth)
    obtain ⟨ms, hms, -⟩ := exists_members_of_readBytes hread
    exact h ms hms
  | rows hstatus h hrows =>
    rw [rows_of_lt hstatus]
    exact resultRows_of_rows (readBytes_of_hasMembers hlimits h) ((getD_entries _ _).trans hrows)
  | unfit hstatus h hother =>
    rw [rows_of_lt hstatus]
    have hread := (Json.readBytes_eq_ok_iff hlimits).mpr h
    refine resultRows_of_not_rows hread fun es rows hes hrows => ?_
    subst hes
    obtain ⟨ms, hms, rfl⟩ := exists_members_of_readBytes hread
    exact hother ms rows hms ((getD_entries _ _).symm.trans hrows)
  | malformed hstatus hps h =>
    rw [rows_of_lt hstatus]
    exact resultRows_of_error (Json.readBytes_of_not_isElement hlimits hps h)
  | undecodable hstatus h =>
    rw [rows_of_lt hstatus]
    exact resultRows_of_error (Json.readBytes_of_decode?_eq_none h)

/-- A text that is a document by its own characters comes to rows, or to an error with the
    status. -/
theorem IsOutcome.exists_remote {outcome : Except Error (List Value)} {e : Error}
    (h : IsOutcome status body outcome) (hv : IsElement (ofText body) v)
    (he : outcome = .error e) : ∃ code detail, e = .remote (.int status) code detail := by
  have hdecoded := hv.decode?_bytesOf
  cases h with
  | failed | failedPlain | unfit => exact ⟨_, _, (Except.error.inj he).symm⟩
  | rows => cases he
  | malformed _ hps hnone =>
    obtain rfl := Option.some.inj (hdecoded.symm.trans hps)
    exact absurd hv (hnone v)
  | undecodable _ hnone => cases hdecoded.symm.trans hnone

theorem exists_isOutcome_of_document (hstatus : status < 400) (h : IsDocument body v) :
    ∃ outcome, IsOutcome status body outcome := by
  by_cases hfit : ∃ ms rows, HasMembers body ms ∧ lastMember ms "results" = .list rows
  · obtain ⟨ms, rows, hms, hrows⟩ := hfit
    exact ⟨_, .rows hstatus hms hrows⟩
  · exact ⟨_, .unfit hstatus h fun ms rows hms hrows => hfit ⟨ms, rows, hms, hrows⟩⟩

theorem exists_isOutcome_of_lt (hstatus : status < 400) :
    ∃ outcome, IsOutcome status body outcome := by
  cases hps : Json.decode? (bytesOf body) with
  | none => exact ⟨_, .undecodable hstatus hps⟩
  | some ps =>
    by_cases hdocument : ∃ v, IsElement ps v
    · obtain ⟨v, hv⟩ := hdocument
      exact exists_isOutcome_of_document hstatus ⟨ps, hps, hv⟩
    · exact ⟨_, .malformed hstatus hps (not_exists.mp hdocument)⟩

/-- Every answer comes to something. -/
theorem exists_isOutcome (status : Int) (hlimits : IsWithinLimits body) :
    ∃ outcome, IsOutcome status body outcome := by
  rcases Int.lt_or_le status 400 with hstatus | hstatus
  · exact exists_isOutcome_of_lt hstatus
  by_cases hobject : ∃ ms, HasMembers body ms
  · obtain ⟨ms, hms⟩ := hobject
    obtain ⟨detail, hdetail⟩ := exists_isDetail (readBytes_of_hasMembers hlimits hms)
    exact ⟨_, .failed hstatus hms hdetail⟩
  · exact ⟨_, .failedPlain hstatus (not_exists.mp hobject)⟩

/-- An answer comes to the one outcome that its status and its body say. -/
theorem rows_eq_iff {outcome : Except Error (List Value)} (hlimits : IsWithinLimits body) :
    (answer status body).rows = outcome ↔ IsOutcome status body outcome := by
  refine ⟨?_, IsOutcome.rows_eq hlimits⟩
  rintro rfl
  obtain ⟨outcome, h⟩ := exists_isOutcome status hlimits
  rw [h.rows_eq hlimits]
  exact h

/-- Only a body that is too deep can hide the status of an error. -/
theorem exists_rows_eq_remote (hstatus : 400 ≤ status)
    (hdepth : readBytes (bytesOf body) ≠ .error .tooDeep) :
    ∃ code detail, (answer status body).rows = .error (.remote (.int status) code detail) := by
  obtain ⟨code, detail, h⟩ := exists_errorDetail hdepth
  exact ⟨code, detail, rows_of_errorDetail hstatus h⟩

end ServerReply

/-! ## Requests -/

namespace Server

open ServerReply (IsOutcome exists_rows_eq_remote rows_eq_iff)

/-- A pipeline that can be written is sent in one request, and its outcome is the one that the
    status and the body of the answer say: rows or an error with the status, where the body is a
    document by its own characters. The status of an error comes through also where a number of
    the body has too many digits. -/
theorem aggregate_answer (s : Server) (className pipeline : Value) {text body : String}
    {status : Int} (htext : pipelineText pipeline = .ok text)
    (hreply : s.replies.current = .answer status body) :
    (s.aggregate className pipeline).calls = [.request (s.endpoint className) s.headers text] ∧
      (IsWithinLimits body → ∀ outcome,
        (s.aggregate className pipeline).outcome = outcome ↔ IsOutcome status body outcome) ∧
      (IsWithinLimits body → ∀ v e, IsElement (ofText body) v →
        (s.aggregate className pipeline).outcome = .error e →
          ∃ code detail, e = .remote (.int status) code detail) ∧
      (400 ≤ status → readBytes (bytesOf body) ≠ .error .tooDeep → ∃ code detail,
        (s.aggregate className pipeline).outcome = .error (.remote (.int status) code detail)) := by
  have hsend : s.aggregate className pipeline = s.send className text := by
    rw [aggregate, htext]
  have houtcome : (s.send className text).outcome = (ServerReply.answer status body).rows := by
    rw [← hreply, ← Replies.next_fst]
    rfl
  rw [hsend, houtcome]
  exact ⟨rfl, fun hlimits _ => rows_eq_iff hlimits,
    fun hlimits _ _ hv => ((rows_eq_iff hlimits).mp rfl).exists_remote hv, exists_rows_eq_remote⟩

/-- Rows come through, and the status of an error does though its body is no document. -/
theorem aggregate_answer_songs :
    let answered : Server :=
      ⟨"", [], ⟨.answer 200 "\x7b\"results\": [\x7b\"plays\": 3\x7d]\x7d", []⟩⟩
    let failed : Server := ⟨"", [], ⟨.answer 502 "<html>", []⟩⟩
    (answered.aggregate (.text "Song") (.list [])).outcome = .ok [.object [("plays", .int 3)]] ∧
      ∃ code detail, (failed.aggregate (.text "Song") (.list [])).outcome =
        .error (.remote (.int 502) code detail) := by
  intro answered failed
  have htext : pipelineText (.list []) = .ok "[]" := rfl
  constructor
  · let body : Value := .object [("results", .list [.object [("plays", .int 3)]])]
    have hdata : Json.IsData 1 body := by
      have hrow : Json.IsData 1 (.object [("plays", .int 3)]) :=
        .object (List.nodup_singleton _) (List.forall_mem_singleton.mpr (.int 3 (by decide)))
      exact .object (List.nodup_singleton _)
        (List.forall_mem_singleton.mpr (.list (List.forall_mem_singleton.mpr hrow)))
    have hdigits : body.digits ≤ Whole.maxDigits := hdata.digits_le.trans (by decide)
    obtain ⟨written, hwritten, -, hreads⟩ := hdata.exists_compact hdigits
    have hcompact : Json.compact body =
        .ok "\x7b\"results\": [\x7b\"plays\": 3\x7d]\x7d" := rfl
    obtain rfl := Except.ok.inj (hcompact.symm.trans hwritten)
    have hread : readBytes (bytesOf "\x7b\"results\": [\x7b\"plays\": 3\x7d]\x7d") =
        .ok body :=
      (Json.readBytes_of_decode?_eq_some (Json.decode?_bytesOf (by decide) (by decide))).trans
        (hreads _ ⟨by decide, by decide⟩)
    have hlimits := Json.isWithinLimits_of_readBytes hread
    obtain ⟨ms, hms, hentries⟩ := ServerReply.exists_members_of_readBytes hread
    refine ((aggregate_answer _ _ _ htext rfl).2.1 hlimits _).mpr (.rows (by decide) hms ?_)
    rw [← ServerReply.getD_entries, ← hentries]
    rfl
  · have hread : readBytes (bytesOf "<html>") = .error .malformedJson :=
      Json.readBytes_of_decode?_eq_some (Json.decode?_bytesOf (by decide) (by decide))
    exact (aggregate_answer _ _ _ htext rfl).2.2.2 (by decide) (by simp [hread])

end Server

end DocQuery
