import BuildWatch.Proofs.Daemon.Lines
import BuildWatch.Proofs.Daemon.Replies
import BuildWatch.Rehearsal.World
import Mathlib.Data.List.TakeWhile

/-!
Serving requests: every line that is not blank is answered by one line, in the order of the lines
and each in the state that the lines before it left.  Input that is no text ends the service after
everything before it was answered.
-/

namespace BuildWatch

open BuildWatch.Text

/-! ### Blank texts -/

namespace Text

theorem trimList_eq_nil_iff {chars : List Char} :
    trimList chars = [] ↔ ∀ char ∈ chars, isBlank char = true := by
  rw [trimList, List.reverse_eq_nil_iff, List.dropWhile_eq_nil_iff]
  simp only [List.mem_reverse]
  induction chars with
  | nil => simp
  | cons first rest ih =>
      cases hFirst : isBlank first with
      | true =>
          rw [List.dropWhile_cons_of_pos hFirst, ih, List.forall_mem_cons, hFirst]
          simp
      | false => rw [List.dropWhile_cons_of_neg (by simp [hFirst])]

theorem isBlankText_eq (text : String) : isBlankText text = decide (trim text = "") := by
  rw [Bool.eq_iff_iff, decide_eq_true_eq, isBlankText, List.all_eq_true, ← trimList_eq_nil_iff,
    trim, String.ofList_eq_empty_iff]

end Text

/-! ### Lines of replies -/

namespace InputLine

theorem text?_eq_some_iff {line : InputLine} {text : String} :
    line.text? = some text ↔ line.content = bytesOf text :=
  Utf8.text?_eq_some_iff

theorem text?_eq_none_iff {line : InputLine} :
    line.text? = none ↔ ∀ text, line.content ≠ bytesOf text :=
  Utf8.text?_eq_none_iff

theorem splits_joined {texts : List String}
    (hTexts : ∀ text ∈ texts, '\n' ∉ text.toList ∧ '\r' ∉ text.toList) :
    Splits (bytesOf (String.join (texts.map fun text => text ++ "\n"))) (texts.map bytesOf) := by
  induction texts with
  | nil =>
      have hNothing : bytesOf (String.join []) = [] := by rw [bytesOf_eq]; rfl
      rw [List.map_nil, List.map_nil, hNothing]
      exact .nothing
  | cons text rest ih =>
      obtain ⟨⟨hNewline, hReturn⟩, hRest⟩ := List.forall_mem_cons.mp hTexts
      have hBytes : bytesOf (String.join ((text :: rest).map fun text => text ++ "\n")) =
          bytesOf text ++
            newlineByte :: bytesOf (String.join (rest.map fun text => text ++ "\n")) := by
        have hNewlineBytes : bytesOf "\n" = [newlineByte] := by rw [bytesOf_eq]; rfl
        rw [List.map_cons, String.join_cons, Utf8.bytesOf_append, Utf8.bytesOf_append,
          hNewlineBytes, List.append_assoc, List.singleton_append]
      rw [hBytes, List.map_cons]
      refine .newline ?_ ?_ (ih hRest)
      · intro hIn
        exact hNewline (Utf8.mem_bytesOf_plain hIn (by decide))
      · intro hLast
        exact hReturn (Utf8.mem_bytesOf_plain (List.mem_of_getLast? hLast) (by decide))

end InputLine

theorem Serving.splits_output {serving : Serving}
    (hReplies : ∀ reply ∈ serving.replies, Response.IsReply reply) :
    InputLine.Splits (bytesOf serving.output) (serving.replies.map bytesOf) := by
  apply InputLine.splits_joined
  intro reply hReply
  exact ⟨(hReplies reply hReply).noNewline, (hReplies reply hReply).noReturn⟩

namespace Services

variable {World : Type} (services : Services (StateM World))

/-- Requests answered one after another, each in the state that the ones before it left: the
replies, and what is left after them. -/
def answer (coordinator : Coordinator) (world : World) :
    List String → List String × Coordinator × World
  | [] => ([], coordinator, world)
  | request :: rest =>
      let answered := (services.handleLine coordinator request).run world
      let others := answer answered.1.1 answered.2 rest
      (answered.1.2 :: others.1, others.2)

/-- The texts that are requests, which all but the blank ones are. -/
def requestsOf (texts : List String) : List String :=
  texts.filter fun text => trim text ≠ ""

theorem length_answer (coordinator : Coordinator) (world : World) (requests : List String) :
    (services.answer coordinator world requests).1.length = requests.length := by
  induction requests generalizing coordinator world with
  | nil => rfl
  | cons request rest ih => rw [answer, List.length_cons, List.length_cons, ih]

theorem isReply_of_mem_answer {coordinator : Coordinator} {world : World}
    {requests : List String} {reply : String}
    (hReply : reply ∈ (services.answer coordinator world requests).1) :
    Response.IsReply reply := by
  induction requests generalizing coordinator world with
  | nil => exact absurd hReply List.not_mem_nil
  | cons request rest ih =>
      rcases List.mem_cons.mp hReply with rfl | hRest
      · exact services.isReply_handleLine coordinator request world
      · exact ih hRest

/-! ### Single lines -/

theorem serveLines_nil (coordinator : Coordinator) (world : World) :
    (services.serveLines coordinator []).run world = ({ coordinator := coordinator }, world) :=
  rfl

theorem serveLines_unreadable (coordinator : Coordinator) (world : World) {line : InputLine}
    (hLine : line.text? = none) (rest : List InputLine) :
    (services.serveLines coordinator (line :: rest)).run world =
      ({ coordinator := coordinator, failure := some unreadableLine }, world) := by
  rw [serveLines, hLine]
  rfl

theorem serveLines_blank (coordinator : Coordinator) (world : World) {line : InputLine}
    {text : String} (hLine : line.text? = some text) (hBlank : isBlankText text = true)
    (rest : List InputLine) :
    (services.serveLines coordinator (line :: rest)).run world =
      (services.serveLines coordinator rest).run world := by
  rw [serveLines, hLine]
  simp only [answerLine, hBlank, if_true]
  rfl

theorem serveLines_request (coordinator : Coordinator) (world : World) {line : InputLine}
    {text : String} (hLine : line.text? = some text) (hRequest : isBlankText text = false)
    (rest : List InputLine) :
    (services.serveLines coordinator (line :: rest)).run world =
      let answered := (services.handleLine coordinator text).run world
      let served := (services.serveLines answered.1.1 rest).run answered.2
      ({ served.1 with replies := answered.1.2 :: served.1.replies }, served.2) := by
  rw [serveLines, hLine]
  simp only [answerLine, hRequest]
  rfl

/-- Lines that are texts are answered before the lines after them are served. -/
theorem serveLines_append {early : List InputLine} {texts : List String}
    (hEarly : early.map InputLine.content = texts.map bytesOf) (coordinator : Coordinator)
    (world : World) (late : List InputLine) :
    (services.serveLines coordinator (early ++ late)).run world =
      let answered := services.answer coordinator world (requestsOf texts)
      let served := (services.serveLines answered.2.1 late).run answered.2.2
      ({ served.1 with replies := answered.1 ++ served.1.replies }, served.2) := by
  induction early generalizing texts coordinator world with
  | nil =>
      obtain rfl := List.map_eq_nil_iff.mp hEarly.symm
      rfl
  | cons line rest ih =>
      cases texts with
      | nil => cases hEarly
      | cons text others =>
          obtain ⟨hContent, hRest⟩ := List.cons.inj hEarly
          have hLine : line.text? = some text := InputLine.text?_eq_some_iff.mpr hContent
          have hBlankText := isBlankText_eq text
          rw [List.cons_append]
          cases hBlank : isBlankText text with
          | true =>
              rw [hBlank] at hBlankText
              have hSkipped : requestsOf (text :: others) = requestsOf others :=
                List.filter_cons_of_neg (by simpa using hBlankText.symm)
              rw [services.serveLines_blank coordinator world hLine hBlank, ih hRest, hSkipped]
          | false =>
              rw [hBlank] at hBlankText
              have hTaken : requestsOf (text :: others) = text :: requestsOf others :=
                List.filter_cons_of_pos (by simpa using hBlankText.symm)
              rw [services.serveLines_request coordinator world hLine hBlank, hTaken]
              dsimp only
              rw [ih hRest]
              rfl

/-! ### Whole input -/

theorem exists_texts (lines : List (List UInt8)) :
    (∃ texts : List String, lines = texts.map bytesOf) ∨
      ∃ (texts : List String) (bad : List UInt8) (rest : List (List UInt8)),
        lines = texts.map bytesOf ++ bad :: rest ∧ ∀ text, bad ≠ bytesOf text := by
  induction lines with
  | nil => exact Or.inl ⟨[], rfl⟩
  | cons line rest ih =>
      by_cases hLine : ∃ text, line = bytesOf text
      · obtain ⟨text, rfl⟩ := hLine
        rcases ih with ⟨texts, rfl⟩ | ⟨texts, bad, after, rfl, hBad⟩
        · exact Or.inl ⟨text :: texts, rfl⟩
        · exact Or.inr ⟨text :: texts, bad, after, rfl, hBad⟩
      · exact Or.inr ⟨[], line, rest, rfl, not_exists.mp hLine⟩

theorem serve_texts {input : List UInt8} {texts : List String}
    (hInput : InputLine.Splits input (texts.map bytesOf)) (coordinator : Coordinator)
    (world : World) :
    (services.serve coordinator input).run world =
      let answered := services.answer coordinator world (requestsOf texts)
      ({ coordinator := answered.2.1, replies := answered.1 }, answered.2.2) := by
  have hServed := services.serveLines_append hInput.eq_split.symm coordinator world []
  rw [List.append_nil] at hServed
  rw [serve, hServed]
  dsimp only
  rw [services.serveLines_nil, List.append_nil]

theorem serve_unreadable {input : List UInt8} {texts : List String} {bad : List UInt8}
    {rest : List (List UInt8)}
    (hInput : InputLine.Splits input (texts.map bytesOf ++ bad :: rest))
    (hBad : ∀ text, bad ≠ bytesOf text) (coordinator : Coordinator) (world : World) :
    (services.serve coordinator input).run world =
      let answered := services.answer coordinator world (requestsOf texts)
      ({ coordinator := answered.2.1, replies := answered.1, failure := some unreadableLine },
        answered.2.2) := by
  obtain ⟨early, late, hSplit, hEarly, hLate⟩ := List.map_eq_append_iff.mp hInput.eq_split.symm
  obtain ⟨line, after, rfl, rfl, _⟩ := List.map_eq_cons_iff.mp hLate
  have hLine : line.text? = none := InputLine.text?_eq_none_iff.mpr hBad
  rw [serve, hSplit, services.serveLines_append hEarly coordinator world]
  dsimp only
  rw [services.serveLines_unreadable _ _ hLine, List.append_nil]

/-- Whatever is put in, only replies are put out. -/
theorem isReply_of_mem_serve {coordinator : Coordinator} {world : World} {input : List UInt8}
    {reply : String}
    (hReply : reply ∈ ((services.serve coordinator input).run world).1.replies) :
    Response.IsReply reply := by
  have hInput := InputLine.splits_split input
  rcases exists_texts ((InputLine.split input).map InputLine.content) with
    ⟨texts, hTexts⟩ | ⟨texts, bad, rest, hTexts, hBad⟩
  · rw [hTexts] at hInput
    rw [services.serve_texts hInput] at hReply
    exact services.isReply_of_mem_answer hReply
  · rw [hTexts] at hInput
    rw [services.serve_unreadable hInput hBad] at hReply
    exact services.isReply_of_mem_answer hReply

/-- Any input is cut into lines in one way, and what is put out is cut into replies: one for each
line that is not blank, in the same order, each the answer to its line in the state that the lines
before it left.  Every reply is an object on one line with one of the status codes, whatever texts
come into it.  If some line is no text, the service fails after the lines before it. -/
theorem one_reply_per_request (coordinator : Coordinator) (world : World) (input : List UInt8) :
    ∃ lines, (∀ others, InputLine.Splits input others ↔ others = lines) ∧
      let served := (services.serve coordinator input).run world
      (∀ texts : List String, lines = texts.map bytesOf →
        served.1.failure = none ∧
          served.1.replies.length = (requestsOf texts).length ∧
          (served.1.replies, served.1.coordinator, served.2) =
            services.answer coordinator world (requestsOf texts)) ∧
      (∀ (texts : List String) (bad : List UInt8) (rest : List (List UInt8)),
        lines = texts.map bytesOf ++ bad :: rest → (∀ text, bad ≠ bytesOf text) →
        served.1.failure = some unreadableLine ∧
          served.1.replies.length = (requestsOf texts).length ∧
          (served.1.replies, served.1.coordinator, served.2) =
            services.answer coordinator world (requestsOf texts)) ∧
      InputLine.Splits (bytesOf served.1.output) (served.1.replies.map bytesOf) ∧
      (∀ reply ∈ served.1.replies, Response.IsReply reply) ∧
      ∀ code ∈ Response.codes, ∀ message, Response.IsReply (Response.error code message).text := by
  refine ⟨(InputLine.split input).map InputLine.content, fun _ => InputLine.splits_iff, ?_⟩
  intro served
  have hInput := InputLine.splits_split input
  have hReplies : ∀ reply ∈ served.1.replies, Response.IsReply reply :=
    fun _ => services.isReply_of_mem_serve
  refine ⟨?_, ?_, Serving.splits_output hReplies, hReplies, ?_⟩
  · intro texts hTexts
    rw [hTexts] at hInput
    have hServed : served = _ := services.serve_texts hInput coordinator world
    rw [hServed]
    exact ⟨rfl, services.length_answer coordinator world _, rfl⟩
  · intro texts bad rest hTexts hBad
    rw [hTexts] at hInput
    have hServed : served = _ := services.serve_unreadable hInput hBad coordinator world
    rw [hServed]
    exact ⟨rfl, services.length_answer coordinator world _, rfl⟩
  · intro code hCode message
    exact Response.isReply_text (Response.isProper_error hCode message)

/-- A request for a project whose id has a line break, a blank line, and a byte that is no text. -/
theorem one_reply_per_request_untilUnreadable :
    let services := Services.create Rehearsal.World.files Rehearsal.World.runtime
      InfoDirectory.projects
    let coordinator : Coordinator := { options := { quietPeriod := 1 } }
    let request := "\x7b\"op\":\"ports\",\"container\":\"c\",\"projectID\":\"a\\nb\"\x7d"
    let served :=
      (services.serve coordinator (bytesOf (request ++ "\r\n \n") ++ [0xFF])).run {}
    served.1.failure = some unreadableLine ∧
      served.1.replies =
        ["\x7b\"statusCode\":404,\"message\":\"Project does not exist a\\nb\"\x7d"] := by
  intro services coordinator request served
  obtain ⟨lines, hLines, _, hUnreadable, _⟩ :=
    one_reply_per_request services coordinator {} (bytesOf (request ++ "\r\n \n") ++ [0xFF])
  have hSplits : InputLine.Splits (bytesOf (request ++ "\r\n \n") ++ [0xFF])
      ([request, " "].map bytesOf ++ [[0xFF]]) :=
    InputLine.splits_iff.mpr (by decide +kernel)
  have hBad : ∀ text, [0xFF] ≠ bytesOf text := Utf8.text?_eq_none_iff.mp (by decide +kernel)
  obtain ⟨hFailure, _, hServed⟩ :=
    hUnreadable [request, " "] [0xFF] [] ((hLines _).mp hSplits).symm hBad
  have hAnswer : (services.answer coordinator {} (requestsOf [request, " "])).1 =
      ["\x7b\"statusCode\":404,\"message\":\"Project does not exist a\\nb\"\x7d"] := by
    decide +kernel
  refine ⟨hFailure, ?_⟩
  rw [← hAnswer, ← hServed]

end Services

end BuildWatch
