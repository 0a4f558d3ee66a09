import Testkit.Proofs.Handler.Happenings
import Testkit.Proofs.Http.Fields
import Testkit.Proofs.Transport.Parity

/-! What a handler with a JSON value answers. It is the same for each request, whatever happens to
handlers in between, and by either transport: the text of the value under the headers that were given,
which may replace the content type, or an error without any of them. -/

namespace Testkit

namespace Handler

/-- What a client gets from a handler with a JSON value. -/
def jsonAnswer : Except EncodingError Json → Headers → Answer
  | .ok v, headers => ⟨200, (jsonResponse v.compact headers).headers, Bytes.ofText v.compact⟩
  | .error _, _ => ⟨500, [], []⟩

variable (value : Except EncodingError Json) (headers : Headers)

theorem served_json : (Handler.json value headers).served =
    .response (jsonAnswer value headers).response := by
  cases value <;> rfl

theorem sent_json : (Handler.json value headers).sent = .ok (jsonAnswer value headers) := by
  rw [sent, served_json]
  simp [Answer.response]

theorem along_json (i : HandlerId) (log : List Happening) :
    (Handler.json value headers).along i log = .json value headers := by
  induction log with
  | nil => rfl
  | cons e log ih =>
    have hstill : (Handler.json value headers).after e = .json value headers := by cases e <;> rfl
    rw [along_cons, meets, hstill, ite_self, ih]

end Handler

namespace Store

variable {s : Store} {id : HandlerId} {value : Except EncodingError Json} {headers : Headers}

/-- A value without a text is warned of each time that it is asked for. -/
def warned (s : Store) : Except EncodingError Json → Store
  | .ok _ => s
  | .error e => s.notify (.notEncoded e)

theorem run_json (hs : s.handlers[id]? = some (.json value headers)) (ops : List HandlerOp) :
    (run ops s).2.handlers[id]? = some (.json value headers) := by
  rw [undergoes_run ops s id, hs, Option.map_some, Handler.along_json]

theorem serve_json (hs : s.handlers[id]? = some (.json value headers)) (r : Request) :
    s.serve id r = (.response (Handler.jsonAnswer value headers).response, s.warned value) := by
  rw [serve_eq_serveFor (answers_of_answer hs rfl r)]
  cases value <;> simp only [serveFor, hs] <;> rfl

/-- A handler with a JSON value answers each request in the same way, by either transport, and
whatever has been done with handlers before. If the value has a text, the values of each name are those
that were added for it, in whatever letters, all of them and in order, and otherwise the content type
is that of JSON and there is nothing else. If it has none, there are no headers at all, and the handler
warns. -/
theorem json_answers {start : Store} {added : List (String × Bytes)}
    (h : start.handlers[id]? = some (.json value (.ofList added))) :
    ∃ a : Answer,
      (∀ ops r, let s := (run ops start).2
        s.serve id r = (.response a.response, s.warned value) ∧
        (s.send id r).1 = .ok a ∧ (s.respond id r).1 = some a.response) ∧
      (∀ v, value = .ok v → a.status = 200 ∧ a.body = Bytes.ofText v.compact ∧
        ∀ name, a.headers.values name =
          if Headers.given added name ≠ [] then Headers.given added name
          else if name = "content-type" then [Bytes.ofText "application/json"]
          else []) ∧
      ∀ e, value = .error e → a = ⟨500, [], []⟩ := by
  refine ⟨Handler.jsonAnswer value (.ofList added), fun ops r => ?_, ?_, ?_⟩
  · have hs := run_json h ops
    have hroute : (run ops start).2.Routes id [id] (.json value (.ofList added)) := .answer hs rfl
    refine ⟨serve_json hs r, ?_, ?_⟩
    · rw [(send_of_routes hroute trivial r).1, Handler.sent_json]
    · rw [(respond_of_routes hroute trivial r).1, Handler.sent_json]
      rfl
  · rintro v rfl
    refine ⟨rfl, rfl, fun name => ?_⟩
    have hheaders : (Handler.jsonAnswer (.ok v) (.ofList added)).headers =
        (Headers.insert [] "content-type" (Bytes.ofText "application/json")).extend
          (.ofList added) := rfl
    rw [hheaders, Headers.values_extend, Headers.values_insert, Headers.values_ofList, ite_not]
    simp only [eq_comm (a := name)]
    rfl
  · rintro e rfl
    rfl

/-- Two handlers with the same headers, one of them with a value that has no text, after a request
through a third that is sent from the one to the other. -/
theorem json_answers_of_mixed_letters :
    let one := Bytes.ofText "1"
    let two := Bytes.ofText "2"
    let plain := Bytes.ofText "text/plain"
    let added : List (String × Bytes) :=
      [("X-A", one), ("Content-Type", plain), ("x-a", two), ("CONTENT-TYPE", one)]
    let r : Request := default
    let start : Store :=
      { handlers := [.json (.ok .null) (.ofList added),
          .json (.error ⟨"no text", 0, 0⟩) (.ofList added), .delegating 0] }
    let ops : List HandlerOp := [.send 2 r, .setHandler 2 1, .request 2 r]
    let s := (run ops start).2
    (∃ a : Answer, (s.send 0 r).1 = .ok a ∧ a.status = 200 ∧
      a.headers.values "content-type" = [plain, one] ∧ a.headers.values "x-a" = [one, two] ∧
      a.headers.values "x-b" = []) ∧
    (s.send 1 r).1 = .ok ⟨500, [], []⟩ := by
  intro one two plain added r start ops s
  have hvalue : start.handlers[0]? = some (.json (.ok .null) (.ofList added)) := rfl
  have herror : start.handlers[1]? = some (.json (.error ⟨"no text", 0, 0⟩) (.ofList added)) := rfl
  obtain ⟨a, hanswers, htext, -⟩ := json_answers hvalue
  obtain ⟨a', hanswers', -, hnone⟩ := json_answers herror
  obtain ⟨hstatus, -, hvalues⟩ := htext .null rfl
  obtain ⟨-, hsent, -⟩ := hanswers ops r
  obtain ⟨-, hsent', -⟩ := hanswers' ops r
  have hgiven : Headers.given added "content-type" = [plain, one] ∧
      Headers.given added "x-a" = [one, two] ∧ Headers.given added "x-b" = [] := by decide +kernel
  refine ⟨⟨a, hsent, hstatus, ?_, ?_, ?_⟩, ?_⟩
  · rw [hvalues, hgiven.1]
    rfl
  · rw [hvalues, hgiven.2.1]
    rfl
  · rw [hvalues, hgiven.2.2]
    decide
  · rw [← hnone _ rfl]
    exact hsent'
end Store

end Testkit
