import PatternSampler.Notation.Descent

/-! # Places, and rules for procedures

  `Ends input procedure place good bad` says of a procedure that is started at a place: it has a
  result, the place is inside the pattern whenever it is moved, and `good` holds of a value and of
  the place where it leaves off, or `bad` of the reason for which it refuses the pattern. There is
  one rule for each way in which procedures are put together. The rule for loops is the only one
  that counts turns: each turn that is not the last moves the place forward, so that there are no
  more turns than symbols.

  `Gives input procedure place result` says that a procedure does what one of the functions on
  cursors does, and `Makes input procedure make place result` that it makes something of it.
-/

namespace PatternSampler.Notation

open Cursor

/-! ## Places and cursors -/

namespace Cursor

variable {c d : Cursor} {ch : Char}

theorem eat?_eq_some_iff : c.eat? ch = some d ↔ c.peek = some ch ∧ c.next = d := by
  simp [eat?]

theorem eat?_eq_none_iff : c.eat? ch = none ↔ c.peek ≠ some ch := by
  simp [eat?]

end Cursor

/-- The place is inside the pattern, and always was. The end of the pattern is inside. -/
structure Place.Inside (input : Input) (place : Place) : Prop where
  /-- Where the place is now. -/
  position : place.position ≤ input.symbols.length
  /-- Where it was before. -/
  visited : ∀ p ∈ place.visited, p ≤ input.symbols.length

/-- The cursor at a place: the symbols to come are those of the pattern from there on. -/
def Input.cursor (input : Input) (place : Place) : Cursor :=
  ⟨place.position, input.symbols.drop place.position⟩

variable {input : Input} {place after : Place}

@[simp] theorem position_cursor : (input.cursor place).position = place.position := rfl

theorem Place.inside_start (input : Input) : Place.start.Inside input :=
  ⟨Nat.zero_le _, fun _ => nofun⟩

theorem Place.Inside.moveTo (inside : place.Inside input) {position : Nat}
    (le : position ≤ input.symbols.length) : (place.moveTo position).Inside input := by
  refine ⟨le, fun p p_mem => ?_⟩
  rcases List.mem_cons.1 p_mem with rfl | p_mem
  · exact le
  · exact inside.visited p p_mem

theorem peek_cursor : (input.cursor place).peek =
    (input.symbols[place.position]?).bind Symbol.char? := by
  simp [Input.cursor, peek]

theorem Place.Inside.position_add_remaining (inside : place.Inside input) :
    place.position + (input.cursor place).remaining = input.symbols.length := by
  have := inside.position
  simp only [Input.cursor, remaining, List.length_drop]
  omega

/-! Inside the pattern, places are compared by what is still to come. -/

theorem Place.Inside.position_lt (inside : place.Inside input) (inside_after : after.Inside input)
    (h : (input.cursor after).remaining < (input.cursor place).remaining) :
    place.position < after.position := by
  have := inside.position_add_remaining
  have := inside_after.position_add_remaining
  omega

theorem Place.Inside.position_le (inside : place.Inside input) (inside_after : after.Inside input)
    (h : (input.cursor after).remaining ≤ (input.cursor place).remaining) :
    place.position ≤ after.position := by
  have := inside.position_add_remaining
  have := inside_after.position_add_remaining
  omega

/-- The cursor depends on the position only, not on where the place was before. -/
theorem cursor_eq (same : after.position = place.position) :
    input.cursor after = input.cursor place := by
  rw [Input.cursor, Input.cursor, same]

/-- Past a symbol the cursor is the next one. -/
theorem cursor_next (more : (input.cursor place).rest ≠ []) :
    input.cursor (place.moveTo (place.position + 1)) = (input.cursor place).next := by
  have lt : place.position < input.symbols.length := by
    simpa [Input.cursor, List.drop_eq_nil_iff] using more
  simp only [Input.cursor, Place.moveTo, List.drop_eq_getElem_cons lt, next]

theorem position_of_next {ch : Char} (peeked : (input.cursor place).peek = some ch)
    (passed : input.cursor after = (input.cursor place).next) :
    after.position = place.position + 1 := by
  rw [← cursor_next (rest_ne_nil_of_peek peeked)] at passed
  exact congrArg Cursor.position passed

theorem Place.Inside.pass (inside : place.Inside input) (more : (input.cursor place).rest ≠ []) :
    (place.moveTo (place.position + 1)).Inside input := by
  apply inside.moveTo
  have lt : place.position < input.symbols.length := by
    simpa [Input.cursor, List.drop_eq_nil_iff] using more
  exact lt

namespace Descent

/-! ## Rules -/

variable {σ α β : Type} {procedure : Descent α} {following : α → Descent β}

/-- Where the first procedure comes to a value, the second one goes on. -/
theorem bind_apply {value : α} (h : procedure input place = some (.ok value, after)) :
    (procedure >>= following) input place = following value input after := by
  show (procedure input place >>= _) = _
  rw [h]
  rfl

theorem position_apply : position input place = some (.ok place.position, place) := rfl

theorem symbolAt?_apply (p : Nat) :
    symbolAt? p input place = some (.ok input.symbols[p]?, place) := rfl

theorem pass_apply :
    pass input place = some (.ok (), place.moveTo (place.position + 1)) := rfl

theorem peek_apply : peek input place = some (.ok (input.cursor place).peek, place) := by
  rw [peek_cursor]
  rfl

/-- Started at a place, the procedure ends, inside the pattern all the while. A value and the place
    where it leaves off are good, or the reason for which it refuses the pattern is bad. -/
def Ends (input : Input) (procedure : Descent α) (place : Place) (good : α → Place → Prop)
    (bad : Misreading → Prop) : Prop :=
  ∃ outcome after, procedure input place = some (outcome, after) ∧ after.Inside input ∧
    match outcome with
    | .ok value => good value after
    | .error reason => bad reason

/-- The procedure does at a place what a function on cursors does there. -/
abbrev Gives (input : Input) (procedure : Descent α) (place : Place)
    (result : Except Misreading (α × Cursor)) : Prop :=
  Ends input procedure place (fun value after => result = .ok (value, input.cursor after))
    (fun reason => result = .error reason)

namespace Ends

variable {good good' : α → Place → Prop} {goodEnd : β → Place → Prop}
  {bad bad' : Misreading → Prop}

theorem imp (h : Ends input procedure place good bad)
    (values : ∀ value after, after.Inside input → good value after → good' value after)
    (reasons : ∀ reason, bad reason → bad' reason) : Ends input procedure place good' bad' := by
  obtain ⟨outcome, after, result, inside, holds⟩ := h
  refine ⟨outcome, after, result, inside, ?_⟩
  cases outcome with
  | ok value => exact values value after inside holds
  | error reason => exact reasons reason holds

theorem pure {value : α} (inside : place.Inside input) (h : good value place) :
    Ends input (pure value) place good bad :=
  ⟨.ok value, place, rfl, inside, h⟩

theorem refuse {reason : Misreading} (inside : place.Inside input) (h : bad reason) :
    Ends input (refuse reason) place good bad :=
  ⟨.error reason, place, rfl, inside, h⟩

/-- The same with a reason that says less. -/
theorem imp_reason (h : Ends input procedure place good bad)
    (reasons : ∀ reason, bad reason → bad' reason) : Ends input procedure place good bad' :=
  h.imp (fun _ _ _ holds => holds) reasons

/-- One procedure after another: the second is started where the first leaves off, and not at all
    if the first refuses. -/
theorem bind (first : Ends input procedure place good bad)
    (second : ∀ value after, after.Inside input → good value after →
      Ends input (following value) after goodEnd bad) :
    Ends input (procedure >>= following) place goodEnd bad := by
  obtain ⟨outcome, after, result, inside, holds⟩ := first
  cases outcome with
  | ok value =>
    obtain ⟨outcome', after', result', rest⟩ := second value after inside holds
    refine ⟨outcome', after', ?_, rest⟩
    rw [bind_apply result, result']
  | error reason =>
    refine ⟨.error reason, after, ?_, inside, holds⟩
    show (procedure input place >>= _) = _
    rw [result]
    rfl

/-- A fault that is caught: the place stays where the fault was found. -/
theorem tryCatch {handler : Misreading → Descent α} (first : Ends input procedure place good bad)
    (caught : ∀ reason after, after.Inside input → bad reason →
      Ends input (handler reason) after good bad') :
    Ends input (tryCatch procedure handler) place good bad' := by
  obtain ⟨outcome, after, result, inside, holds⟩ := first
  cases outcome with
  | ok value =>
    refine ⟨.ok value, after, ?_, inside, holds⟩
    show (procedure input place >>= _) = _
    rw [result]
    rfl
  | error reason =>
    obtain ⟨outcome', after', result', rest⟩ := caught reason after inside holds
    refine ⟨outcome', after', ?_, rest⟩
    show (procedure input place >>= _) = _
    rw [result, ← result']
    rfl

/-- One procedure after another, where it is known what the first comes to. -/
theorem after_step {value : α} (result : procedure input place = some (.ok value, after))
    (next : Ends input (following value) after goodEnd bad) :
    Ends input (procedure >>= following) place goodEnd bad := by
  obtain ⟨outcome, last, result', rest⟩ := next
  exact ⟨outcome, last, by rw [bind_apply result, result'], rest⟩

/-! The place is asked for, looked at, and moved. -/

variable {next : Unit → Descent β}

theorem position {following : Nat → Descent β}
    (next : Ends input (following place.position) place goodEnd bad) :
    Ends input (Descent.position >>= following) place goodEnd bad :=
  after_step position_apply next

theorem atEnd {following : Bool → Descent β}
    (next : Ends input (following (input.cursor place).rest.isEmpty) place goodEnd bad) :
    Ends input (Descent.atEnd >>= following) place goodEnd bad := by
  refine after_step ?_ next
  have same : (input.cursor place).rest.isEmpty =
      decide (input.symbols.length ≤ place.position) := by
    rw [Bool.eq_iff_iff, List.isEmpty_iff, decide_eq_true_iff, Input.cursor]
    exact List.drop_eq_nil_iff
  rw [same]
  rfl

theorem peek {following : Option Char → Descent β}
    (next : Ends input (following (input.cursor place).peek) place goodEnd bad) :
    Ends input (Descent.peek >>= following) place goodEnd bad :=
  after_step peek_apply next

theorem moveTo (inside : place.Inside input) {position : Nat} (le : position ≤ input.symbols.length)
    (moved : ∀ after, after.Inside input → after.position = position →
      Ends input (next ()) after goodEnd bad) :
    Ends input (Descent.moveTo position >>= next) place goodEnd bad :=
  after_step rfl (moved _ (inside.moveTo le) rfl)

theorem pass (inside : place.Inside input) (more : (input.cursor place).rest ≠ [])
    (passed : ∀ after, after.Inside input → input.cursor after = (input.cursor place).next →
      Ends input (next ()) after goodEnd bad) :
    Ends input (Descent.pass >>= next) place goodEnd bad :=
  after_step pass_apply (passed _ (inside.pass more) (cursor_next more))

theorem advance {following : Option Symbol → Descent β} (inside : place.Inside input)
    (ended : (input.cursor place).rest = [] → Ends input (following none) place goodEnd bad)
    (passed : ∀ symbol rest after, (input.cursor place).rest = symbol :: rest →
      after.Inside input → input.cursor after = (input.cursor place).next →
      Ends input (following (some symbol)) after goodEnd bad) :
    Ends input (Descent.advance >>= following) place goodEnd bad := by
  have here : symbolAt? place.position input place =
      some (.ok (input.cursor place).rest.head?, place) := by
    rw [Input.cursor, List.head?_drop, symbolAt?_apply]
  cases rest_eq : (input.cursor place).rest with
  | nil =>
    refine after_step ?_ (ended rest_eq)
    rw [Descent.advance, bind_apply position_apply, bind_apply here, rest_eq]
    rfl
  | cons symbol rest =>
    have more : (input.cursor place).rest ≠ [] := by simp [rest_eq]
    refine after_step ?_ (passed symbol rest _ rest_eq (inside.pass more) (cursor_next more))
    rw [Descent.advance, bind_apply position_apply, bind_apply here, rest_eq]
    rfl

theorem eat {expected : Char} {following : Bool → Descent β} (inside : place.Inside input)
    (eaten : ∀ after, after.Inside input →
      (input.cursor place).eat? expected = some (input.cursor after) →
      Ends input (following true) after goodEnd bad)
    (stays : (input.cursor place).eat? expected = none →
      Ends input (following false) place goodEnd bad) :
    Ends input (Descent.eat expected >>= following) place goodEnd bad := by
  by_cases stands : (input.cursor place).peek = some expected
  · have more := rest_ne_nil_of_peek stands
    refine after_step ?_ (eaten _ (inside.pass more) ?_)
    · rw [Descent.eat, bind_apply peek_apply, if_pos stands]
      rfl
    · rw [cursor_next more, eat?, if_pos stands]
  · refine after_step ?_ (stays (if_neg stands))
    rw [Descent.eat, bind_apply peek_apply, if_neg stands]
    rfl

/-- A loop ends if every turn that is not the last keeps an invariant and moves the place forward.
    Then it takes at most one turn more than symbols are still to come. -/
theorem loop {turn : σ → Descent (σ ⊕ α)} (enough : input.symbols.length < input.limit)
    (Inv : σ → Place → Prop)
    (each : ∀ state here, here.Inside input → Inv state here →
      Ends input (turn state) here (fun next after =>
        match next with
        | .inl state => here.position < after.position ∧ Inv state after
        | .inr value => good value after) bad)
    {first : σ} (inside : place.Inside input) (start : Inv first place) :
    Ends input (Descent.loop turn first) place good bad := by
  -- by induction on the turns that are left: they are more than the symbols that are left
  have turns (left : Nat) : ∀ state here, here.Inside input → Inv state here →
      input.symbols.length - here.position < left →
      Ends input (loop.turns turn left state) here good bad := by
    induction left with
    | zero => intro _ _ _ _ lt; omega
    | succ left ih =>
      intro state here inside_here holds lt
      refine (each state here inside_here holds).bind fun next after inside_after taken => ?_
      cases next with
      | inl state =>
        have := inside_after.position
        exact ih state after inside_after taken.2 (by omega)
      | inr value => exact .pure inside_after taken
  exact turns input.limit first place inside start (by omega)

end Ends

/-- A mark that may be left out is passed if it stands at the place. -/
theorem ends_mark (inside : place.Inside input) (mark : Char) :
    Ends input (eat mark) place
      (fun found after => found = ((input.cursor place).eat? mark).isSome ∧
        input.cursor after = ((input.cursor place).eat? mark).getD (input.cursor place))
      (fun _ => False) := by
  -- the rule for the mark asks what comes after it, which is nothing here
  rw [← bind_pure (eat mark)]
  refine Ends.eat inside (fun after inside_after eaten => ?_) fun stays => ?_
  · exact .pure inside_after (by rw [eaten]; exact ⟨rfl, rfl⟩)
  · exact .pure inside (by rw [stays]; exact ⟨rfl, rfl⟩)

/-- A character stands for a value. -/
theorem Gives.pass_return {value : α} {ch : Char} (inside : place.Inside input)
    (peeked : (input.cursor place).peek = some ch) :
    Gives input (do pass; return value) place (.ok (value, (input.cursor place).next)) := by
  refine Ends.pass inside (rest_ne_nil_of_peek peeked) fun after inside_after passed => ?_
  exact .pure inside_after (by rw [passed])

/-- One procedure after another does what one function on cursors does after the other. -/
theorem Gives.bind {result : Except Misreading (α × Cursor)}
    {next : α × Cursor → Except Misreading (β × Cursor)}
    (first : Gives input procedure place result)
    (second : ∀ value after, after.Inside input → result = .ok (value, input.cursor after) →
      Gives input (following value) after (next (value, input.cursor after))) :
    Gives input (procedure >>= following) place (result >>= next) := by
  refine Ends.bind (first.imp_reason ?_) fun value after inside ok => ?_
  · intro reason refused
    rw [refused]
    rfl
  · rw [ok]
    exact second value after inside ok

/-- The procedure makes something of what a function on cursors reads at the place. -/
abbrev Makes (input : Input) (procedure : Descent β) (make : α → β) (place : Place)
    (result : Except Misreading (α × Cursor)) : Prop :=
  Ends input procedure place
    (fun value after => ∃ read, value = make read ∧ result = .ok (read, input.cursor after))
    (fun reason => result = .error reason)

/-- Where a procedure makes something of what is read, the next one goes on with that. -/
theorem Makes.bind {γ δ : Type} {result : Except Misreading (γ × Cursor)} {make : γ → α}
    {next : γ × Cursor → Except Misreading (δ × Cursor)} {make' : δ → β}
    (first : Makes input procedure make place result)
    (second : ∀ read after, after.Inside input → result = .ok (read, input.cursor after) →
      Makes input (following (make read)) make' after (next (read, input.cursor after))) :
    Makes input (procedure >>= following) make' place (result >>= next) := by
  refine Ends.bind (first.imp_reason ?_) ?_
  · intro reason refused
    rw [refused]
    rfl
  · rintro value after inside ⟨read, rfl, ok⟩
    rw [ok]
    exact second read after inside ok

end Descent

end PatternSampler.Notation
