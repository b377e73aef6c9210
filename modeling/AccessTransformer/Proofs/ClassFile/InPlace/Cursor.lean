import AccessTransformer.ClassFile.Skim
import AccessTransformer.Proofs.ClassFile.InPlace.Checked
import AccessTransformer.Proofs.ClassFile.Layout

/-!
# Cursors

A cursor is an offset into bytes that stay where they are.  Reading moves it forward by as many
bytes as are taken, and leaves it alone where they are not all there.

A reader tracks a skimming one if, from every place of the bytes, it does in place what skimming
does with what stands there: the same value with the cursor at what is left, or the same failure.
Readers that are put together from such readers track what is put together from the others.

* `Tracks`: what it is for a reader in place to do as skimming does.
* `Tracks.bind`, `Tracks.during`, `Tracks.times`: readers that are put together.
* `Tracks.within_eq`: nothing is breached in bytes of their own.
-/

namespace AccessTransformer.InPlace

open ClassFile Checked

/-- A place in bytes that stay where they are. -/
structure Cursor where
  data : Bytes
  offset : Nat
  deriving DecidableEq, Repr

/-- Reads from a cursor on, and moves it. -/
abbrev Reader := StateT Cursor (Checked Failure)

namespace Reader

variable {α : Type}

/-- The next `count` bytes. -/
def take (count : Nat) : Reader Bytes := fun cursor =>
  let stop := cursor.offset + count
  match slice? cursor.data cursor.offset stop with
  | none => safely Skim.outOfBounds
  | some bytes =>
    if stop ≤ cursor.data.length then pure (bytes, { cursor with offset := stop })
    else breach (.beyond stop cursor.data.length)

/-- Passes over the next `count` bytes. -/
def skip (count : Nat) : Reader Unit := do
  let _ ← take count

/-- The next byte. -/
def u8 : Reader UInt8 := do
  let bytes ← take 1
  byteAt (ε := Failure) bytes 0

/-- The next two bytes, as a word. -/
def u16 : Reader UInt16 := do
  let bytes ← take 2
  wordIn (ε := Failure) bytes

/-- The next four bytes, as a number. -/
def u32 : Reader Nat := do
  let bytes ← take 4
  numberIn (ε := Failure) bytes

/-- The values of a reader that is run as often as the next word says. -/
def counted (reader : Reader α) : Reader (List α) := do
  times reader (← u16).toNat

/-- What needs no bytes. -/
def ofOutcome (outcome : Outcome α) : Reader α :=
  liftM (safely outcome : Checked Failure α)

/-- The same reader, as part of a step. -/
def during (step : Step) (reader : Reader α) : Reader α := fun cursor =>
  (reader cursor).mapOutcome (Outcome.during step)

/-- The value that a reader finds in bytes of their own. -/
def within (reader : Reader α) (bytes : Bytes) : Checked Failure α :=
  (·.1) <$> reader ⟨bytes, 0⟩

end Reader

/-! ## Tracking -/

variable {α β γ δ : Type}

/-- Whether a reader does from every place in bytes what skimming does with what stands there, with
other values for those that skimming gives. -/
def Tracks (f : α → γ) (reader : Reader γ) (skim : Skim α) : Prop :=
  ∀ cursor : Cursor, cursor.offset ≤ cursor.data.length →
    (∃ a stop, cursor.offset ≤ stop ∧ stop ≤ cursor.data.length ∧
      skim (cursor.data.drop cursor.offset) = .ok (a, cursor.data.drop stop) ∧
      reader cursor = safely (.ok (f a, { cursor with offset := stop }))) ∨
    ∃ failure, skim (cursor.data.drop cursor.offset) = .error failure ∧
      reader cursor = safely (.error failure)

namespace Tracks

variable {f : α → γ} {g : β → δ} {reader : Reader γ} {skim : Skim α} {next : γ → Reader δ}
  {next' : α → Skim β}

theorem pure (f : α → γ) (a : α) : Tracks f (Pure.pure (f a)) (Pure.pure a) :=
  fun cursor hcursor => .inl ⟨a, cursor.offset, Nat.le_refl _, hcursor, rfl, rfl⟩

/-- What needs no bytes is tracked if it is safe. -/
theorem lift {checked : Checked Failure α} {outcome : Outcome α} (h : checked = safely outcome) :
    Tracks id (liftM checked) (liftM outcome) := by
  subst h
  intro cursor hcursor
  cases outcome with
  | ok a => exact .inl ⟨a, cursor.offset, Nat.le_refl _, hcursor, rfl, rfl⟩
  | error failure => exact .inr ⟨failure, rfl, rfl⟩

/-- The same failure is the same for every value that was wanted. -/
theorem fail (failure : Failure) :
    Tracks f (liftM (safely (.error failure : Outcome γ))) (liftM (.error failure : Outcome α)) :=
  fun _ _ => .inr ⟨failure, rfl, rfl⟩

/-- A reader that goes on with what was read only has to do so with what can be read. -/
theorem bind_of_ok (h : Tracks f reader skim)
    (hnext : ∀ bytes a rest, skim bytes = .ok (a, rest) → Tracks g (next (f a)) (next' a)) :
    Tracks g (reader >>= next) (skim >>= next') := by
  intro cursor hcursor
  have hskims : (skim >>= next') (cursor.data.drop cursor.offset)
      = skim (cursor.data.drop cursor.offset) >>= fun result => next' result.1 result.2 := rfl
  have hreads : (reader >>= next) cursor
      = reader cursor >>= fun result => next result.1 result.2 := rfl
  rw [hskims, hreads]
  rcases h cursor hcursor with ⟨a, stop, hle, hstop, hskim, hread⟩ | ⟨failure, hskim, hread⟩
  · rw [hskim, hread]
    rcases hnext _ a _ hskim ⟨cursor.data, stop⟩ hstop with
      ⟨b, stop', hle', hstop', hskim', hread'⟩ | ⟨failure, hskim', hread'⟩
    · exact .inl ⟨b, stop', Nat.le_trans hle hle', hstop', hskim', hread'⟩
    · exact .inr ⟨failure, hskim', hread'⟩
  · rw [hskim, hread]
    exact .inr ⟨failure, rfl, rfl⟩

/-- **One reader after another tracks one skimming reader after another.** -/
theorem bind (h : Tracks f reader skim) (hnext : ∀ a, Tracks g (next (f a)) (next' a)) :
    Tracks g (reader >>= next) (skim >>= next') :=
  h.bind_of_ok fun _ a _ _ => hnext a

/-- What skimming does with the value afterwards can be done by the other values. -/
theorem bind_pure {f : β → γ} {g : α → β} (h : Tracks (fun a => f (g a)) reader skim) :
    Tracks f reader (skim >>= fun a => Pure.pure (g a)) := by
  intro cursor hcursor
  have hskims : (skim >>= fun a => Pure.pure (g a)) (cursor.data.drop cursor.offset)
      = skim (cursor.data.drop cursor.offset) >>= fun result => .ok (g result.1, result.2) := rfl
  rw [hskims]
  rcases h cursor hcursor with ⟨a, stop, hle, hstop, hskim, hread⟩ | ⟨failure, hskim, hread⟩
  · rw [hskim]
    exact .inl ⟨g a, stop, hle, hstop, rfl, hread⟩
  · rw [hskim]
    exact .inr ⟨failure, rfl, hread⟩

theorem during (h : Tracks f reader skim) (step : Step) :
    Tracks f (Reader.during step reader) (Skim.during step skim) := by
  intro cursor hcursor
  unfold Reader.during Skim.during
  rcases h cursor hcursor with ⟨a, stop, hle, hstop, hskim, hread⟩ | ⟨failure, hskim, hread⟩
  · rw [hskim, hread]
    exact .inl ⟨a, stop, hle, hstop, rfl, rfl⟩
  · rw [hskim, hread]
    exact .inr ⟨_, rfl, rfl⟩

/-- **Bytes are there in place exactly if skimming takes them.** -/
theorem take (count : Nat) : Tracks id (Reader.take count) (Skim.take count) := by
  intro cursor hcursor
  unfold Reader.take Skim.take
  dsimp only
  rw [slice?_add (.inl hcursor)]
  cases hsplit : Bytes.splitAt? count (cursor.data.drop cursor.offset) with
  | none => exact .inr ⟨_, rfl, rfl⟩
  | some parts =>
    obtain ⟨front, rest⟩ := parts
    obtain ⟨heq, rfl⟩ := Bytes.splitAt?_eq_some_iff.mp hsplit
    have hlength := congrArg List.length heq
    rw [List.length_drop, List.length_append] at hlength
    have hstop : cursor.offset + front.length ≤ cursor.data.length := by omega
    have hrest : rest = cursor.data.drop (cursor.offset + front.length) := by
      rw [← List.drop_drop, heq, List.drop_left]
    refine .inl ⟨front, cursor.offset + front.length, Nat.le_add_right _ _, hstop, ?_, ?_⟩
    · rw [← hrest]
    · dsimp only [Option.map_some]
      rw [if_pos hstop]
      rfl

theorem skip (count : Nat) : Tracks id (Reader.skip count) (Skim.skip count) :=
  (Tracks.take count).bind fun _ => Tracks.pure id ()

/-- Bytes that were taken are as many as were asked for. -/
theorem take_bind {next : Bytes → Reader δ} {next' : Bytes → Skim β} {count : Nat}
    (hnext : ∀ bytes, bytes.length = count → Tracks g (next bytes) (next' bytes)) :
    Tracks g (Reader.take count >>= next) (Skim.take count >>= next') := by
  refine (Tracks.take count).bind_of_ok fun bytes front rest htake => hnext front ?_
  exact (Skim.eq_append_of_take htake).2

theorem u8 : Tracks id Reader.u8 Skim.u8 := by
  have hskim : Skim.u8 = Skim.take 1 >>= fun bytes => Pure.pure (bytes.getD 0 0) := by
    funext bytes
    rcases bytes with _ | ⟨byte, bytes⟩ <;> rfl
  rw [hskim]
  refine take_bind fun bytes hlength => ?_
  obtain ⟨byte, rfl⟩ := List.length_eq_one_iff.mp hlength
  exact Tracks.pure id byte

theorem u16 : Tracks id Reader.u16 Skim.u16 := by
  have hskim : Skim.u16 = Skim.take 2 >>= fun bytes =>
      Pure.pure (Bytes.word (bytes.getD 0 0) (bytes.getD 1 0)) := by
    funext bytes
    rcases bytes with _ | ⟨high, _ | ⟨low, bytes⟩⟩ <;> rfl
  rw [hskim]
  refine take_bind fun bytes hlength => ?_
  obtain ⟨high, low, rfl⟩ := List.length_eq_two.mp hlength
  exact Tracks.pure id (Bytes.word high low)

theorem u32 : Tracks id Reader.u32 Skim.u32 := by
  have hskim : Skim.u32 = Skim.take 4 >>= fun bytes =>
      Pure.pure (Bytes.doubleWord (bytes.getD 0 0) (bytes.getD 1 0) (bytes.getD 2 0)
        (bytes.getD 3 0)) := by
    funext bytes
    rcases bytes with _ | ⟨a, _ | ⟨b, _ | ⟨c, _ | ⟨d, bytes⟩⟩⟩⟩ <;> rfl
  rw [hskim]
  refine take_bind fun bytes hlength => ?_
  obtain ⟨a, b, c, d, rfl⟩ := List.length_eq_four.mp hlength
  exact Tracks.pure id (Bytes.doubleWord a b c d)

theorem times {reader : Reader α} (h : Tracks id reader skim) (count : Nat) :
    Tracks id (ClassFile.times reader count) (ClassFile.times skim count) := by
  induction count with
  | zero => exact Tracks.pure id []
  | succ count ih => exact h.bind fun first => ih.bind fun rest => Tracks.pure id (first :: rest)

theorem counted {reader : Reader α} (h : Tracks id reader skim) :
    Tracks id (Reader.counted reader) (Skim.counted skim) :=
  Tracks.u16.bind fun count => h.times count.toNat

/-- **A reader that tracks a skimming one breaches nothing in bytes of their own.** -/
theorem within_map_eq (h : Tracks f reader skim) (bytes : Bytes) :
    reader.within bytes = safely ((skim.within bytes).map f) := by
  unfold Reader.within Skim.within
  rcases h ⟨bytes, 0⟩ (Nat.zero_le _) with ⟨a, stop, -, -, hskim, hread⟩ | ⟨failure, hskim, hread⟩
  · rw [List.drop_zero] at hskim
    rw [hskim, hread]
    rfl
  · rw [List.drop_zero] at hskim
    rw [hskim, hread]
    rfl

theorem within_eq {reader : Reader α} (h : Tracks id reader skim) (bytes : Bytes) :
    reader.within bytes = safely (skim.within bytes) := by
  rw [h.within_map_eq, Except.map_id]
  rfl

end Tracks

end AccessTransformer.InPlace
