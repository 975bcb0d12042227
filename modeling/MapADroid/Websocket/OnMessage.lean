import MapADroid.Websocket.ClientEntry
import MapADroid.Worker.WalkerValue

/- What `__on_message` does with each message of a device.

   Only a `ValueError` is caught. A text without a separator that is a number raises an
   `IndexError`, and a binary message is cut at its fourth byte whether it has four or
   not, so that a shorter one is delivered under an id it does not hold. Every other
   message is handled as intended (`handled_iff`). -/
namespace MapADroid.Websocket

/-- How `__on_message` ends: with an exception, with the message dropped, or with a call of
`set_message_response`. -/
inductive Outcome where
  | raised
  | dropped
  | delivered (messageId : Int) (response : Message)
  deriving DecidableEq

/-- `__on_message`, given what `int` reads of a text, none where it raises a `ValueError`. -/
def received (int : List Char → Option Int) : Message → Outcome
  | .text s =>
    match int (s.takeWhile (· ≠ ';')) with
    | none => .dropped
    | some messageId =>
      match s.dropWhile (· ≠ ';') with
      -- `splitup` has no second part
      | [] => .raised
      | _ :: response => .delivered messageId (.text response)
  | .binary b => .delivered (fromBytes (b.take 4)) (.binary (b.drop 4))

/-- A message that is an id and a response: a text `<id>;<response>`, or four bytes of an id and a response. -/
inductive IsResponse (int : List Char → Option Int) : Message → Int → Message → Prop where
  | text {id response : List Char} {messageId : Int} (hid : ';' ∉ id) (hint : int id = some messageId) :
      IsResponse int (.text (id ++ ';' :: response)) messageId (.text response)
  | binary {id response : List UInt8} (hlength : id.length = 4) :
      IsResponse int (.binary (id ++ response)) (fromBytes id) (.binary response)

/-- A message is handled as intended: it raises nothing, what is delivered is its id and response, and it is
dropped if it has none. -/
def Handled (int : List Char → Option Int) (m : Message) : Prop :=
  received int m ≠ .raised ∧
    (∀ messageId response, received int m = .delivered messageId response ↔ IsResponse int m messageId response) ∧
    ((∀ messageId response, ¬ IsResponse int m messageId response) → received int m = .dropped)

/-- A text has a separator or is no number, a binary message has at least four bytes. -/
def Tolerated (int : List Char → Option Int) : Message → Prop
  | .text s => ';' ∈ s ∨ int s = none
  | .binary b => 4 ≤ b.length

variable {int : List Char → Option Int}

/-! ## The parts of a text -/

theorem takeWhile_append_separator {id : List Char} (hid : ';' ∉ id) (response : List Char) :
    (id ++ ';' :: response).takeWhile (· ≠ ';') = id := by
  rw [List.takeWhile_append_of_pos fun c hc => by
    have hne : c ≠ ';' := fun h => hid (h ▸ hc)
    simpa using hne]
  simp

theorem dropWhile_append_separator {id : List Char} (hid : ';' ∉ id) (response : List Char) :
    (id ++ ';' :: response).dropWhile (· ≠ ';') = ';' :: response := by
  rw [List.dropWhile_append_of_pos fun c hc => by
    have hne : c ≠ ';' := fun h => hid (h ▸ hc)
    simpa using hne]
  simp

/-! ## Every message -/

theorem received_text {id : List Char} (hid : ';' ∉ id) (response : List Char) :
    received int (.text (id ++ ';' :: response)) = match int id with
      | none => .dropped
      | some messageId => .delivered messageId (.text response) := by
  simp only [received, takeWhile_append_separator hid, dropWhile_append_separator hid]

/-- A text without a separator is an id as a whole. -/
theorem received_undivided {s : List Char} (h : ';' ∉ s) :
    received int (.text s) = match int s with
      | none => .dropped
      | some _ => .raised := by
  have htake : s.takeWhile (· ≠ ';') = s := by
    rw [List.takeWhile_eq_self_iff]
    intro c hc
    have hne : c ≠ ';' := fun hc' => h (hc' ▸ hc)
    simpa using hne
  have hdrop : s.dropWhile (· ≠ ';') = [] := by
    rw [List.dropWhile_eq_nil_iff]
    intro c hc
    have hne : c ≠ ';' := fun hc' => h (hc' ▸ hc)
    simpa using hne
  simp only [received, htake, hdrop]

/-- What is an id and a response is delivered. -/
theorem IsResponse.received {m : Message} {messageId : Int} {response : Message}
    (h : IsResponse int m messageId response) : received int m = .delivered messageId response := by
  cases h with
  | text hid hint => rw [received_text hid, hint]
  | @binary id response hlength =>
    show Outcome.delivered (fromBytes ((id ++ response).take 4)) (.binary ((id ++ response).drop 4)) = _
    rw [List.take_left' hlength, List.drop_left' hlength]

/-- A message has at most one id and response. -/
theorem IsResponse.unique {m : Message} {i j : Int} {q r : Message} (h : IsResponse int m i q)
    (h' : IsResponse int m j r) : i = j ∧ q = r := by
  have hsame := h.received
  rw [h'.received] at hsame
  cases hsame
  exact ⟨rfl, rfl⟩

theorem IsResponse.length {b : List UInt8} {messageId : Int} {response : Message}
    (h : IsResponse int (.binary b) messageId response) : 4 ≤ b.length := by
  cases h with
  | binary hlength =>
    rw [List.length_append]
    omega

theorem IsResponse.handled {m : Message} {messageId : Int} {response : Message}
    (h : IsResponse int m messageId response) : Handled int m := by
  refine ⟨by rw [h.received]; simp, fun i r => ⟨fun hdelivered => ?_, fun h' => h'.received⟩, fun hnone => ?_⟩
  · rw [h.received] at hdelivered
    cases hdelivered
    exact h
  · exact absurd h (hnone messageId response)

theorem handled_of_dropped {m : Message} (h : received int m = .dropped) : Handled int m := by
  refine ⟨by rw [h]; simp, fun i r => ⟨fun hdelivered => ?_, fun h' => h'.received⟩, fun _ => h⟩
  rw [h] at hdelivered
  cases hdelivered

/-- A message is handled as intended exactly if it is a text with a separator or not a number, or a binary
message of at least four bytes. -/
theorem handled_iff (int : List Char → Option Int) (m : Message) : Handled int m ↔ Tolerated int m := by
  cases m with
  | text s =>
    by_cases hseparator : ';' ∈ s
    · refine ⟨fun _ => .inl hseparator, fun _ => ?_⟩
      obtain ⟨id, response, rfl, hid⟩ := List.eq_append_cons_of_mem hseparator
      cases hint : int id with
      | none =>
        apply handled_of_dropped
        rw [received_text hid, hint]
      | some messageId => exact (IsResponse.text hid hint).handled
    · constructor
      · intro h
        right
        cases hint : int s with
        | none => rfl
        | some messageId =>
          have hraised : received int (.text s) = .raised := by rw [received_undivided hseparator, hint]
          exact absurd hraised h.1
      · intro h
        have hint : int s = none := h.resolve_left hseparator
        apply handled_of_dropped
        rw [received_undivided hseparator, hint]
  | binary b =>
    constructor
    · intro h
      exact ((h.2.1 _ _).mp rfl).length
    · intro (h : 4 ≤ b.length)
      have hresponse : IsResponse int (.binary (b.take 4 ++ b.drop 4)) (fromBytes (b.take 4)) (.binary (b.drop 4)) :=
        .binary (by rw [List.length_take]; omega)
      rw [List.take_append_drop] at hresponse
      exact hresponse.handled

/-- A device that sends a number alone ends the receiver of its messages. -/
theorem number_alone_raises : ¬ ∀ m, Handled Worker.ascii.int m := by
  intro h
  exact absurd (show received Worker.ascii.int (.text ['5']) = .raised by decide) (h (.text ['5'])).1

/-! ## The requests that wait -/

theorem onMessage_eq (m : Message) : onMessage int m = match received int m with
    | .raised => none
    | .dropped => none
    | .delivered messageId response => some (messageId, response) := by
  cases m with
  | text s =>
    cases hint : int (s.takeWhile (· ≠ ';')) with
    | none => simp only [onMessage, received, hint]
    | some messageId =>
      cases hrest : s.dropWhile (· ≠ ';') with
      | nil => simp only [onMessage, received, hint, hrest]
      | cons separator response => simp only [onMessage, received, hint, hrest]
  | binary b => rfl

/-- What a message does to the requests: only one that is delivered reaches any. -/
theorem step_receive (s : ClientEntry) (m : Message) : s.step int (.receive m) = some (match received int m with
    | .raised => s
    | .dropped => s
    | .delivered messageId response => s.setMessageResponse messageId response) := by
  simp only [ClientEntry.step, onMessage_eq]
  cases received int m with
  | raised => rfl
  | dropped => rfl
  | delivered messageId response => rfl

end MapADroid.Websocket
