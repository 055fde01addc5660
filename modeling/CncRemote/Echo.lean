import CncRemote.Lines

/-!
# Echoed serial numbers

`CommandSend` writes a command and looks at the status until the control echoes its serial number
or a later one.  Both numbers are counters of 32 bits that wrap, and it subtracts them as numbers of
type `int`, which C++ leaves undefined where the difference does not fit.  `Counted` relates the
counters to true counts that are never 2^31 or more apart; `acknowledges_iff` says when the echo is
recognised however such a subtraction comes out.
-/

namespace CncRemote

open Program

theorem exists_poll_succ {fine good : Nat → Prop} {rounds : Nat} :
    (∃ poll < rounds + 1, (∀ earlier ≤ poll, fine earlier) ∧ good poll) ↔
      fine 0 ∧ (good 0 ∨
        ∃ poll < rounds, (∀ earlier ≤ poll, fine (earlier + 1)) ∧ good (poll + 1)) := by
  constructor
  · rintro ⟨_ | poll, within, fine, good⟩
    · exact ⟨fine 0 (Nat.le_refl 0), .inl good⟩
    · refine ⟨fine 0 (Nat.zero_le _), .inr ⟨poll, by omega, fun earlier before => ?_, good⟩⟩
      exact fine _ (Nat.succ_le_succ before)
  · rintro ⟨first, good | ⟨poll, within, fine, good⟩⟩
    · refine ⟨0, Nat.succ_pos _, fun earlier before => ?_, good⟩
      obtain rfl : earlier = 0 := Nat.le_zero.mp before
      exact first
    · refine ⟨poll + 1, Nat.succ_lt_succ within, fun earlier before => ?_, good⟩
      cases earlier with
      | zero => exact first
      | succ earlier => exact fine earlier (Nat.le_of_succ_le_succ before)

namespace LinuxCnc

variable {R : Type} {server : LinuxCnc R}

/-- The server after a look at the status. -/
def peeked (server : LinuxCnc R) : LinuxCnc R :=
  { server with
    tape := fun index => server.tape (index + 1)
    control := (server.tape 0).status
    content :=
      if (server.tape 0).value = -1 then server.content
      else Function.update server.content (server.emcStatusBuffer.getD 0)
        (server.tape 0).status }

theorem Connected.peeked (connected : server.Connected) : server.peeked.Connected :=
  connected.congr rfl

theorem Connected.ends_peekStatus (connected : server.Connected)
    (post : Int → LinuxCnc R → Prop) :
    Ends peekStatus server post ↔ post (server.tape 0).value server.peeked := by
  have live : server.heap.Live server.emcStatusBuffer := by
    rw [← connected.1.status]
    exact connected.live
  simp only [peekStatus, ends_bind, ends_get, ends_follow, ends_library, ends_ite, ends_pure,
    ends_modify, live, true_and]
  by_cases failed : (server.tape 0).value = -1
  · rw [if_pos failed, LinuxCnc.peeked, if_pos failed, failed]
  · rw [if_neg failed, LinuxCnc.peeked, if_neg failed]

theorem Connected.status_peeked (connected : server.Connected)
    (found : (server.tape 0).value ≠ -1) : server.peeked.status = (server.tape 0).status := by
  change (if (server.tape 0).value = -1 then server.content
    else Function.update server.content (server.emcStatusBuffer.getD 0) (server.tape 0).status)
      (server.emcStatus.getD 0) = _
  rw [if_neg found, connected.1.status, Function.update_self]

/-- An answer is taken for the echo of the command, or of a later one. -/
def SeesEcho (serial : Int32) (answer : NmlAnswer R) : Prop :=
  echoReached answer.status.echoSerialNumber serial answer.overflow = true

instance (serial : Int32) (answer : NmlAnswer R) : Decidable (SeesEcho serial answer) :=
  inferInstanceAs (Decidable (_ = _))

theorem Connected.ends_awaitEcho_succ (connected : server.Connected) (serial : Int32)
    (rounds : Nat) (post : Bool → LinuxCnc R → Prop) :
    Ends (awaitEcho serial (rounds + 1)) server post ↔
      if (server.tape 0).value < 0 then post false server.peeked
      else if SeesEcho serial (server.tape 0) then post true server.peeked
      else Ends (awaitEcho serial rounds) server.peeked post := by
  rw [awaitEcho, ends_bind, ends_get, ends_bind, connected.ends_peekStatus, ends_ite, ends_pure]
  by_cases failed : (server.tape 0).value < 0
  · rw [if_pos failed, if_pos failed]
  · have found : (server.tape 0).value ≠ -1 := by omega
    rw [if_neg failed, if_neg failed, ends_bind, ends_iff_of_eq connected.peeked.readStatus,
      connected.status_peeked found, ends_ite, ends_pure]
    rfl

/-- The wait ends after as many polls as there are rounds or fewer.  It succeeds if the echo comes
in one of them and none has failed until then. -/
theorem Connected.ends_awaitEcho (connected : server.Connected) (serial : Int32) (rounds : Nat) :
    (awaitEcho serial rounds).Ends server fun accepted next =>
      (accepted = true ↔
        ∃ poll < rounds, (∀ earlier ≤ poll, 0 ≤ (server.tape earlier).value) ∧
          SeesEcho serial (server.tape poll)) ∧
        ∃ polls ≤ rounds, next.tape = fun index => server.tape (index + polls) := by
  induction rounds generalizing server with
  | zero =>
      refine (ends_pure _ _ _).mpr ⟨?_, 0, Nat.le_refl 0, rfl⟩
      simp
  | succ rounds ih =>
      rw [connected.ends_awaitEcho_succ, exists_poll_succ]
      by_cases failed : (server.tape 0).value < 0
      · rw [if_pos failed]
        refine ⟨?_, 1, by omega, rfl⟩
        have negative : ¬0 ≤ (server.tape 0).value := by omega
        simp [negative]
      · have fine : 0 ≤ (server.tape 0).value := by omega
        rw [if_neg failed]
        by_cases echoed : SeesEcho serial (server.tape 0)
        · rw [if_pos echoed]
          exact ⟨iff_of_true rfl ⟨fine, .inl echoed⟩, 1, by omega, rfl⟩
        · rw [if_neg echoed]
          refine (ih connected.peeked).mono ?_
          rintro accepted next ⟨accepts, polls, within, rest⟩
          refine ⟨accepts.trans ?_, polls + 1, Nat.succ_le_succ within, rest⟩
          rw [and_iff_right fine, or_iff_right echoed]
          rfl

/-- `CommandSend` calls `write`, and it succeeds. -/
def Writes (server : LinuxCnc R) : Prop :=
  server.emcStatus ≠ none ∧ (server.tape 0).value = 0

/-- The true counts of the command that is written next and of the echoes that the polls for it
find. -/
structure Counted (server : LinuxCnc R) (count : Int) (echoes : Nat → Int) : Prop where
  /-- `cmd.serial_number`, which `write` sets. -/
  serial : Int32.ofInt (server.tape 1).value = Int32.ofInt count
  echo : ∀ poll < 1000,
    (server.tape (poll + 2)).status.echoSerialNumber = Int32.ofInt (echoes poll)
  near : ∀ poll < 1000, (echoes poll - count).natAbs ≤ 2 ^ 31 - 1

/-- Within the polls, and before one of them fails, the true count of the echo is that of the
command or greater. -/
def Echoed (server : LinuxCnc R) (count : Int) (echoes : Nat → Int) : Prop :=
  ∃ poll < 1000, (∀ earlier ≤ poll, 0 ≤ (server.tape (earlier + 2)).value) ∧ count ≤ echoes poll

/-- The difference that the comparison in a poll is about. -/
def difference (server : LinuxCnc R) (poll : Nat) : Int :=
  (server.tape (poll + 2)).status.echoSerialNumber.toInt -
    (Int32.ofInt (server.tape 1).value).toInt

/-- The difference fits in an `int`. -/
def InRange (server : LinuxCnc R) (poll : Nat) : Prop :=
  -2 ^ 31 ≤ server.difference poll ∧ server.difference poll < 2 ^ 31

instance (server : LinuxCnc R) (poll : Nat) : Decidable (server.InRange poll) :=
  inferInstanceAs (Decidable (_ ∧ _))

/-- No poll up to this one fails. -/
def Polled (server : LinuxCnc R) (poll : Nat) : Prop :=
  poll < 1000 ∧ ∀ earlier ≤ poll, 0 ≤ (server.tape (earlier + 2)).value

/-- Another outcome of every comparison that overflows. -/
def withOutcomes (server : LinuxCnc R) (outcomes : Nat → Bool) : LinuxCnc R :=
  { server with tape := fun index => { server.tape index with overflow := outcomes index } }

variable {count : Int} {echoes : Nat → Int} {poll : Nat}

theorem seesEcho_withOutcomes (server : LinuxCnc R) (outcomes : Nat → Bool) (poll : Nat) :
    SeesEcho (Int32.ofInt (server.tape 1).value) ((server.withOutcomes outcomes).tape (poll + 2)) ↔
      if server.InRange poll then 0 ≤ server.difference poll else outcomes (poll + 2) = true := by
  change (if server.InRange poll then decide (0 ≤ server.difference poll)
    else outcomes (poll + 2)) = true ↔ _
  split
  · exact decide_eq_true_iff
  · exact Iff.rfl

/-- A difference that fits is that of the true counts. -/
theorem Counted.difference_eq (counted : server.Counted count echoes) (within : poll < 1000)
    (fits : server.InRange poll) : server.difference poll = echoes poll - count := by
  have near := counted.near poll within
  simp only [InRange, difference, counted.echo poll within, counted.serial, Int32.toInt_ofInt,
    Int32.size, Int.bmod_def] at fits ⊢
  omega

theorem Linked.ends_transmit (linked : server.Linked) :
    transmit.Ends server fun accepted next =>
      (accepted = true ↔ server.Writes ∧ ∃ poll, server.Polled poll ∧
        SeesEcho (Int32.ofInt (server.tape 1).value) (server.tape (poll + 2))) ∧
        ∃ asked ≤ 2, ∃ polls ≤ 1000,
          next.tape = fun index => server.tape (index + polls + asked) := by
  rw [transmit, ends_bind, ends_get, ends_ite]
  by_cases absent : server.emcStatus = none
  · rw [if_pos absent, ends_pure]
    refine ⟨?_, 0, by omega, 0, by omega, rfl⟩
    simp [Writes, absent]
  · have connected : server.Connected := ⟨linked, absent⟩
    have command := linked.held.live_command (linked.command (linked.status ▸ absent))
    rw [if_neg absent, ends_bind, ends_follow, and_iff_right command, ends_bind, ends_library,
      ends_ite]
    by_cases written : (server.tape 0).value = 0
    · have writes : server.Writes := ⟨absent, written⟩
      rw [if_neg (not_not_intro written), ends_bind, ends_ask]
      have ready : Connected
          { server with
            control := (server.tape 0).status
            tape := fun index => server.tape (index + 2) } :=
        connected.congr rfl
      refine (ready.ends_awaitEcho _ 1000).mono ?_
      rintro accepted next ⟨accepts, polls, within, rest⟩
      refine ⟨accepts.trans ?_, 2, Nat.le_refl 2, polls, within, rest⟩
      rw [and_iff_right writes]
      exact exists_congr fun poll => and_assoc.symm
    · rw [if_pos written, ends_pure]
      refine ⟨?_, 1, by omega, 0, by omega, rfl⟩
      simp [Writes, written]

theorem Linked.ends_commandSend (linked : server.Linked) (cmd : NmlCommand R) :
    (commandSend cmd).Ends server fun accepted next =>
      (accepted = true ↔ server.Writes ∧ ∃ poll, server.Polled poll ∧
        SeesEcho (Int32.ofInt (server.tape 1).value) (server.tape (poll + 2))) ∧
        ∃ asked ≤ 2, ∃ polls ≤ 1000,
          next.tape = fun index => server.tape (index + polls + asked) := by
  rw [commandSend, ends_bind]
  refine linked.ends_transmit.mono fun accepted next ends => ?_
  rw [ends_bind, ends_modify, ends_pure]
  exact ends

/-- `CommandSend` polls 1000 times at most and returns true if and only if the command was written
and its echo is seen in time. -/
def Acknowledges (server : LinuxCnc R) (count : Int) (echoes : Nat → Int) (cmd : NmlCommand R) :
    Prop :=
  (commandSend cmd).Ends server fun accepted next =>
    (accepted = true ↔ server.Writes ∧ server.Echoed count echoes) ∧
      ∃ asked ≤ 2, ∃ polls ≤ 1000,
        next.tape = fun index => server.tape (index + polls + asked)

theorem Linked.acknowledges_iff_seen (linked : server.Linked) (cmd : NmlCommand R) :
    server.Acknowledges count echoes cmd ↔
      (server.Writes → ((∃ poll, server.Polled poll ∧
        SeesEcho (Int32.ofInt (server.tape 1).value) (server.tape (poll + 2))) ↔
          server.Echoed count echoes)) := by
  have ends := linked.ends_commandSend cmd
  rw [← and_congr_right_iff]
  constructor
  · intro acknowledges
    obtain ⟨accepted, next, -, ⟨accepts, -⟩, ⟨echoed, -⟩⟩ := Ends.and ends acknowledges
    exact accepts.symm.trans echoed
  · exact fun same => ends.mono fun accepted next ⟨accepts, rest⟩ => ⟨accepts.trans same, rest⟩

/-- A poll shows the echo with a difference that fits, or every difference fits. -/
def Comparable (server : LinuxCnc R) : Prop :=
  (∃ poll, server.Polled poll ∧ server.InRange poll ∧ 0 ≤ server.difference poll) ∨
    ∀ poll, server.Polled poll → server.InRange poll

theorem echoed_iff_polled :
    server.Echoed count echoes ↔ ∃ poll, server.Polled poll ∧ count ≤ echoes poll :=
  exists_congr fun _ => and_assoc.symm

/-- Comparisons that overflow decide nothing exactly if the polls are comparable. -/
theorem Counted.comparable_iff (counted : server.Counted count echoes) :
    (∀ outcomes : Nat → Bool, ((∃ poll, server.Polled poll ∧
        SeesEcho (Int32.ofInt (server.tape 1).value)
          ((server.withOutcomes outcomes).tape (poll + 2))) ↔
      server.Echoed count echoes)) ↔ server.Comparable := by
  simp only [seesEcho_withOutcomes, echoed_iff_polled]
  have true_difference {poll : Nat} (polled : server.Polled poll) (fits : server.InRange poll) :
      0 ≤ server.difference poll ↔ count ≤ echoes poll := by
    rw [counted.difference_eq polled.1 fits]
    omega
  constructor
  · intro always
    by_contra incomparable
    obtain ⟨unseen, overflows⟩ := not_or.mp incomparable
    obtain ⟨poll, polled, overflow⟩ := not_forall₂.mp overflows
    -- if overflowing comparisons fail the command is refused, and if they succeed it is accepted
    have refused : ¬∃ poll, server.Polled poll ∧ count ≤ echoes poll := by
      rw [← always fun _ => false]
      rintro ⟨poll, polled, accepts⟩
      split at accepts
      · rename_i fits
        exact unseen ⟨poll, polled, fits, accepts⟩
      · cases accepts
    refine refused ((always fun _ => true).mp ⟨poll, polled, ?_⟩)
    rw [if_neg overflow]
  · rintro (⟨poll, polled, fits, echoed⟩ | fits) outcomes
    · refine iff_of_true ⟨poll, polled, ?_⟩ ⟨poll, polled, (true_difference polled fits).mp echoed⟩
      rwa [if_pos fits]
    · refine exists_congr fun poll => and_congr_right fun polled => ?_
      rw [if_pos (fits poll polled), true_difference polled (fits poll polled)]

/-- The first command has this serial number.  The control echoes the one before it and then the
one after it. -/
def echoing (serial : Int) : Nat → NmlAnswer ℚ
  | 6 => ⟨0, .rest, false⟩
  | 7 => ⟨serial, .rest, false⟩
  | 8 => ⟨1, { EmcStat.rest with echoSerialNumber := Int32.ofInt (serial - 1) }, false⟩
  | _ => ⟨1, { EmcStat.rest with echoSerialNumber := Int32.ofInt (serial + 1) }, false⟩

/-- The true counts of the echoes. -/
def echoed (serial : Int) (poll : Nat) : Int := if poll = 0 then serial - 1 else serial + 1

theorem counted_of_echoing {serial : Int} {server : LinuxCnc ℚ}
    (number : (server.tape 1).value = serial)
    (echo : ∀ poll < 1000, (server.tape (poll + 2)).status.echoSerialNumber =
      Int32.ofInt (echoed serial poll)) : server.Counted serial (echoed serial) := by
  refine ⟨by rw [number], echo, fun poll _ => ?_⟩
  rw [echoed]
  split <;> omega

end LinuxCnc

end CncRemote
