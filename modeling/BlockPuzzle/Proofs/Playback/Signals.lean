import Mathlib.Data.List.TakeWhile
import BlockPuzzle.Proofs.Playback.Course

/-!
# Signals

What becomes of the signals on a channel. Behind a hang-up nothing is sent any more (`sent`). The
channel keeps the latest value only, so that a value stands only if none other is sent after it in
the same millisecond (`standing`).

A playback rings at a time if that is when the first cancelling value stands (`Playback.Rings`).
Until then all that it hears are values that do not cancel, and then it hears the one that does
(`Playback.Rings.hears`).
-/

namespace BlockPuzzle

/-- The values that are sent, each with its time; the sender sends nothing behind a hang-up. -/
def sent : List (Nat × Signal) → List (Nat × Bool)
  | [] => []
  | (time, .send value) :: signals => (time, value) :: sent signals
  | (_, .hangUp) :: _ => []

/-- The values that stand: those behind which none is sent in the same millisecond. -/
def standing : List (Nat × Bool) → List (Nat × Bool)
  | [] => []
  | value :: values =>
    if values.any fun later => later.1 = value.1 then standing values
    else value :: standing values

/-- Whether something happens no later than a time. -/
def upTo {α : Type} (time : Nat) (item : Nat × α) : Bool :=
  item.1 ≤ time

/-- What happens no later than a time is up to it. -/
lemma upTo_of_le {α : Type} {time : Nat} {item : Nat × α} (le : item.1 ≤ time) :
    upTo time item = true :=
  decide_eq_true le

/-- What happens later is not. -/
lemma not_upTo_of_lt {α : Type} {time : Nat} {item : Nat × α} (lt : time < item.1) :
    ¬ upTo time item = true := by
  simpa [upTo] using lt

/-! ## Values that are sent -/

/-- The values are sent at the times of the first few signals. -/
lemma map_fst_sent (signals : List (Nat × Signal)) :
    (sent signals).map Prod.fst <+: signals.map Prod.fst := by
  induction signals with
  | nil => exact List.prefix_refl _
  | cons signal signals ih =>
    obtain ⟨time, signal⟩ := signal
    cases signal with
    | send value => exact (List.prefix_cons_inj time).2 ih
    | hangUp => exact List.nil_prefix

/-- What is sent up to a time are the signals up to then that are sent. -/
lemma sent_takeWhile (signals : List (Nat × Signal)) (time : Nat) :
    sent (signals.takeWhile (upTo time)) = (sent signals).takeWhile (upTo time) := by
  induction signals with
  | nil => rfl
  | cons signal signals ih =>
    obtain ⟨moment, signal⟩ := signal
    by_cases early : moment ≤ time
    · rw [List.takeWhile_cons_of_pos (upTo_of_le early)]
      cases signal with
      | send value => rw [sent, sent, ih, List.takeWhile_cons_of_pos (upTo_of_le early)]
      | hangUp => rfl
    · rw [List.takeWhile_cons_of_neg (not_upTo_of_lt (Nat.lt_of_not_le early))]
      cases signal with
      | send value =>
        rw [sent, sent, List.takeWhile_cons_of_neg (not_upTo_of_lt (Nat.lt_of_not_le early))]
      | hangUp => rfl

/-- If something is sent later than a time, the sender has not hung up by then, and what is sent
later are the later signals that are sent. -/
lemma sent_dropWhile {signals : List (Nat × Signal)} {time : Nat}
    (more : (sent signals).dropWhile (upTo time) ≠ []) :
    (∀ signal ∈ signals.takeWhile (upTo time), signal.2 ≠ .hangUp) ∧
      sent (signals.dropWhile (upTo time)) = (sent signals).dropWhile (upTo time) := by
  induction signals with
  | nil => exact absurd rfl more
  | cons signal signals ih =>
    obtain ⟨moment, signal⟩ := signal
    cases signal with
    | hangUp => exact absurd rfl more
    | send value =>
      rw [sent] at more ⊢
      by_cases early : moment ≤ time
      · rw [List.dropWhile_cons_of_pos (upTo_of_le early)] at more ⊢
        rw [List.takeWhile_cons_of_pos (upTo_of_le early),
          List.dropWhile_cons_of_pos (upTo_of_le early)]
        obtain ⟨attached, rest⟩ := ih more
        exact ⟨List.forall_mem_cons.2 ⟨Signal.noConfusion, attached⟩, rest⟩
      · have late : time < moment := Nat.lt_of_not_le early
        rw [List.takeWhile_cons_of_neg (not_upTo_of_lt late),
          List.dropWhile_cons_of_neg (not_upTo_of_lt late),
          List.dropWhile_cons_of_neg (not_upTo_of_lt late)]
        exact ⟨fun _ mem => absurd mem List.not_mem_nil, rfl⟩

/-! ## Values that stand -/

/-- The values that stand are some of those sent, in their order. -/
lemma standing_sublist (values : List (Nat × Bool)) : (standing values).Sublist values := by
  induction values with
  | nil => exact List.Sublist.refl _
  | cons value values ih =>
    unfold standing
    split
    · exact ih.cons value
    · exact ih.cons_cons value

/-- A value stands if all others are sent later. -/
lemma standing_of_alone {value : Nat × Bool} {values : List (Nat × Bool)}
    (late : ∀ later ∈ values, value.1 < later.1) :
    standing (value :: values) = value :: standing values := by
  have alone : values.any (fun later => later.1 = value.1) = false := by
    rw [List.any_eq_false]
    intro later mem same
    exact absurd (of_decide_eq_true same) (Nat.ne_of_gt (late later mem))
  rw [standing, alone, if_neg Bool.false_ne_true]

/-- Where no two values are sent in the same millisecond, all of them stand. -/
lemma standing_of_distinct {values : List (Nat × Bool)}
    (distinct : (values.map Prod.fst).Pairwise (· < ·)) : standing values = values := by
  induction values with
  | nil => rfl
  | cons value values ih =>
    obtain ⟨first, rest⟩ := List.pairwise_cons.1 distinct
    rw [standing_of_alone fun later mem => first later.1 (List.mem_map_of_mem mem), ih rest]

/-- Of the values that are sent at the time of the first one the last one stands, and the values
sent later stand as they do without these. -/
lemma standing_cons (value : Nat × Bool) {values : List (Nat × Bool)}
    (times : ((value :: values).map Prod.fst).Pairwise (· ≤ ·)) :
    ∃ latest,
      ((value :: values).takeWhile (upTo value.1)).getLast? = some (value.1, latest) ∧
      standing (value :: values) =
        (value.1, latest) :: standing ((value :: values).dropWhile (upTo value.1)) ∧
      ∀ later ∈ (value :: values).dropWhile (upTo value.1), value.1 < later.1 := by
  induction values generalizing value with
  | nil =>
    rw [List.takeWhile_cons_of_pos (upTo_of_le (Nat.le_refl _)),
      List.dropWhile_cons_of_pos (upTo_of_le (Nat.le_refl _))]
    exact ⟨value.2, rfl, rfl, fun _ mem => absurd mem List.not_mem_nil⟩
  | cons next values ih =>
    obtain ⟨first, rest⟩ := List.pairwise_cons.1 times
    have le : value.1 ≤ next.1 := first next.1 List.mem_cons_self
    rw [List.takeWhile_cons_of_pos (upTo_of_le (Nat.le_refl _)),
      List.dropWhile_cons_of_pos (upTo_of_le (Nat.le_refl _))]
    by_cases same : next.1 = value.1
    · -- the first value is overwritten by the second one
      obtain ⟨latest, last, stand, late⟩ := ih next rest
      rw [same] at last stand late
      refine ⟨latest, ?_, ?_, late⟩
      · rw [List.getLast?_cons, last]
        rfl
      · rw [standing, if_pos (by simp [same])]
        exact stand
    · have late : ∀ later ∈ next :: values, value.1 < later.1 := by
        intro later mem
        have : next.1 ≤ later.1 := by
          rcases List.mem_cons.1 mem with rfl | mem
          · exact Nat.le_refl _
          · exact (List.pairwise_cons.1 rest).1 later.1 (List.mem_map_of_mem mem)
        omega
      have unripe := not_upTo_of_lt (late next List.mem_cons_self)
      rw [List.takeWhile_cons_of_neg unripe, List.dropWhile_cons_of_neg unripe]
      exact ⟨value.2, rfl, standing_of_alone late, late⟩

/-- Of the values that cancel there is a first one, sent no later than the others. -/
lemma first_true {values : List (Nat × Bool)} {s : Nat}
    (times : (values.map Prod.fst).Pairwise (· ≤ ·)) (mem : (s, true) ∈ values) :
    ∃ first ≤ s, values.find? Prod.snd = some (first, true) := by
  have some : (values.find? Prod.snd).isSome := List.find?_isSome.2 ⟨(s, true), mem, rfl⟩
  obtain ⟨⟨first, value⟩, found⟩ := Option.isSome_iff_exists.1 some
  obtain ⟨rfl, before, behind, rfl, none⟩ := List.find?_eq_some_iff_append.1 found
  refine ⟨first, ?_, found⟩
  obtain mem | mem := List.mem_append.1 mem
  · cases none _ mem
  · rw [List.map_append, List.map_cons] at times
    obtain ⟨later, -⟩ := List.pairwise_cons.1 (List.pairwise_append.1 times).2.1
    obtain same | mem := List.mem_cons.1 mem
    · exact Nat.le_of_eq (congrArg Prod.fst same).symm
    · exact later s (List.mem_map_of_mem mem)

/-! ## What a channel takes in -/

namespace Channel

variable {channel : Channel}

/-- A value that is sent becomes the latest, and has not been looked at. -/
lemma receive_send (attached : channel.closed = false) (value : Bool) :
    channel.receive (.send value) = { channel with latest := value, unseen := true } := by
  rw [receive, if_neg (by simp [attached])]

/-- A hang-up closes the channel and leaves its value. -/
lemma receive_hangUp (attached : channel.closed = false) :
    channel.receive .hangUp = { channel with closed := true } := by
  rw [receive, if_neg (by simp [attached])]

/-- The channel after signals have come in. -/
def hear (channel : Channel) (signals : List (Nat × Signal)) : Channel :=
  signals.foldl (fun channel signal => channel.receive signal.2) channel

/-- Nothing changes a channel that is closed. -/
lemma hear_of_closed (closed : channel.closed = true) (signals : List (Nat × Signal)) :
    channel.hear signals = channel :=
  Playback.foldl_receive_of_closed signals closed

/-- A channel holds the last value that was sent on it. -/
lemma latest_hear (attached : channel.closed = false) (signals : List (Nat × Signal)) :
    (channel.hear signals).latest =
      ((sent signals).getLast?.map Prod.snd).getD channel.latest := by
  induction signals generalizing channel with
  | nil => rfl
  | cons signal signals ih =>
    obtain ⟨time, signal⟩ := signal
    cases signal with
    | hangUp =>
      change ((channel.receive .hangUp).hear signals).latest = _
      rw [receive_hangUp attached, hear_of_closed rfl]
      rfl
    | send value =>
      change ((channel.receive (.send value)).hear signals).latest = _
      rw [receive_send attached, sent, List.getLast?_cons]
      refine (ih ?_).trans ?_
      · exact attached
      · cases (sent signals).getLast? with
        | none => rfl
        | some last => rfl

/-- It has something to show if anything was sent. -/
lemma unseen_hear (attached : channel.closed = false) {signals : List (Nat × Signal)}
    (some : sent signals ≠ []) : (channel.hear signals).unseen = true := by
  cases signals with
  | nil => exact absurd rfl some
  | cons signal signals =>
    obtain ⟨time, signal⟩ := signal
    cases signal with
    | hangUp => exact absurd rfl some
    | send value =>
      change ((channel.receive (.send value)).hear signals).unseen = true
      refine Playback.unseen_foldl_receive signals ?_
      rw [receive_send attached]

/-- A channel stays open as long as the sender does not hang up. -/
lemma closed_hear (attached : channel.closed = false) {signals : List (Nat × Signal)}
    (values : ∀ signal ∈ signals, signal.2 ≠ .hangUp) : (channel.hear signals).closed = false :=
  List.foldlRecOn (motive := fun channel : Channel => channel.closed = false) _ _ attached
    fun _ closed _ mem => (Playback.closed_receive (values _ mem)).trans closed

end Channel

/-! ## When a playback rings -/

namespace Playback

variable {p : Playback} {s : Nat}

/-- A playback listens, has heard all signals so far, and the first value to come that stands and
cancels is sent at a given time. -/
structure Rings (p : Playback) (s : Nat) : Prop where
  listening : p.listening = true
  unseen : p.channel.unseen = false
  attached : p.channel.closed = false
  times : (p.signals.map Prod.fst).Pairwise (· ≤ ·)
  ahead : ∀ signal ∈ p.signals, p.time ≤ signal.1
  first : (standing (sent p.signals)).find? Prod.snd = some (s, true)

/-- What a playback finds on the channel when it hears a value. -/
structure Found (p : Playback) (time : Nat) (value : Bool) : Prop where
  heard : p.heardAt? = some time
  unseen : (p.waitUntil time).channel.unseen = true
  latest : (p.waitUntil time).channel.latest = value

/-- The last value that was sent by the time a playback hears is what it finds. -/
lemma found_of_sent {time : Nat} {value : Bool} (attached : p.channel.closed = false)
    (heard : p.heardAt? = some time)
    (last : ((sent p.signals).takeWhile (upTo time)).getLast? = some (time, value)) :
    Found p time value := by
  rw [← sent_takeWhile] at last
  refine ⟨heard, ?_, ?_⟩
  · apply Channel.unseen_hear attached
    intro none
    change sent (p.signals.takeWhile (upTo time)) = [] at none
    rw [none] at last
    cases last
  · refine (Channel.latest_hear attached _).trans ?_
    change ((sent (p.signals.takeWhile (upTo time))).getLast?.map Prod.snd).getD _ = _
    rw [last]
    rfl

/-- A playback that rings hears the first signal to come, and that is a value. -/
lemma Rings.heardAt? (rings : Rings p s) :
    ∃ time value others, sent p.signals = (time, value) :: others ∧ p.heardAt? = some time ∧
      ∀ signal ∈ p.signals, time ≤ signal.1 := by
  have first := rings.first
  have times := rings.times
  cases signals : p.signals with
  | nil =>
    rw [signals] at first
    cases first
  | cons signal others =>
    obtain ⟨time, signal⟩ := signal
    rw [signals] at first times
    cases signal with
    | hangUp => cases first
    | send value =>
      have later : p.time ≤ time := rings.ahead (time, .send value) (signals ▸ List.mem_cons_self)
      have silent : p.channel.speaks = false := by
        rw [Channel.speaks, rings.unseen, rings.attached]
        rfl
      refine ⟨time, value, sent others, rfl, ?_, List.forall_mem_cons.2 ⟨Nat.le_refl _, ?_⟩⟩
      · rw [Playback.heardAt?, if_pos rings.listening, silent, if_neg Bool.false_ne_true, signals]
        exact congrArg some (Nat.max_eq_right later)
      · intro signal mem
        exact (List.pairwise_cons.1 times).1 signal.1 (List.mem_map_of_mem mem)

/-- The next value that it hears cancels, or the sender has not hung up by then and the value that
cancels is still to come. -/
lemma Rings.hears (rings : Rings p s) :
    Found p s true ∨
      ∃ time < s, Found p time false ∧ (p.waitUntil time).channel.closed = false ∧
        (standing (sent (p.waitUntil time).signals)).find? Prod.snd = some (s, true) := by
  obtain ⟨time, value, others, start, heard, -⟩ := rings.heardAt?
  have times : ((sent p.signals).map Prod.fst).Pairwise (· ≤ ·) :=
    rings.times.sublist (map_fst_sent p.signals).sublist
  have first := rings.first
  rw [start] at times first
  obtain ⟨latest, last, stand, late⟩ := standing_cons (time, value) times
  rw [stand] at first
  rw [← start] at first last late
  have found := found_of_sent rings.attached heard last
  cases latest with
  | true =>
    cases first
    exact .inl found
  | false =>
    -- the value that cancels is among those that are sent later
    have mem := (standing_sublist _).subset (List.mem_of_find?_eq_some first)
    obtain ⟨values, rest⟩ := sent_dropWhile (List.ne_nil_of_mem mem)
    refine .inr ⟨time, late _ mem, found, Channel.closed_hear rings.attached values, ?_⟩
    exact (congrArg (fun values => (standing values).find? Prod.snd) rest).trans first

end Playback

end BlockPuzzle
