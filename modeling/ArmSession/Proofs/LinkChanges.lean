import ArmSession.Net.NetworkLink

/-!
# What calls change of a network link

A send on a channel changes the outgoing side of that channel, and a receive the incoming side.
The clock, the log, the peer and the place in the stream may change with a receive.
-/

namespace ArmSession.Net.NetworkLink

open Wire

variable (l : NetworkLink)

theorem write_changes (bs : Bytes) :
    ∃ outcomes written, (l.write bs).2 = { l with stream := { l.stream with outcomes, written } } :=
  ⟨_, _, rfl⟩

theorem sendService_changes (m : Bytes) : ∃ outcomes written,
    (l.sendService m).2 = { l with stream := { l.stream with outcomes, written } } := by
  unfold sendService
  split
  · exact ⟨_, _, rfl⟩
  · split
    · exact ⟨_, _, rfl⟩
    · obtain ⟨outcomes, written, hlength⟩ := l.write_changes (littleEndian lengthSize m.length)
      cases hwrite : l.write (littleEndian lengthSize m.length) with
      | mk answer l₁ =>
          rw [hwrite] at hlength
          cases answer with
          | error e => exact ⟨outcomes, written, hlength⟩
          | ok _ =>
              obtain ⟨outcomes', written', hmessage⟩ := l₁.write_changes m
              refine ⟨outcomes', written', hmessage.trans ?_⟩
              rw [show l₁ = _ from hlength]

theorem sendRealtime_changes (m : Bytes) : ∃ outcomes transmitted,
    (l.sendRealtime m).2 = { l with socket := { l.socket with outcomes, transmitted } } := by
  unfold sendRealtime
  split
  · exact ⟨_, _, rfl⟩
  · next peer _ =>
      split
      · exact ⟨_, _, rfl⟩
      · unfold DatagramSocket.transmit
        cases l.socket.outcomes with
        | nil => exact ⟨_, _, rfl⟩
        | cons outcome rest =>
            cases outcome with
            | error e => exact ⟨_, _, rfl⟩
            | ok _ => exact ⟨_, _, rfl⟩

theorem readExact_changes (timeout : Duration) (inFrame : Bool) (n : Nat) :
    ∃ outOfStep now log, (l.readExact timeout inFrame n).2 = { l with
      stream := { l.stream with inflow := (fill (patience timeout) n l.stream.inflow).inflow }
      outOfStep
      now
      log } := by
  unfold readExact
  dsimp only
  split
  · exact ⟨_, _, _, rfl⟩
  · exact ⟨_, _, _, rfl⟩
  · split
    · exact ⟨_, _, _, rfl⟩
    · exact ⟨_, _, _, rfl⟩

theorem receiveService_changes (timeout : Duration) : ∃ inflow outOfStep now log,
    (l.receiveService timeout).2 =
      { l with stream := { l.stream with inflow }, outOfStep, now, log } := by
  unfold receiveService
  split
  · exact ⟨_, _, _, _, rfl⟩
  · obtain ⟨outOfStep, now, log, hlength⟩ := l.readExact_changes timeout false lengthSize
    cases hread : l.readExact timeout false lengthSize with
    | mk answer l₁ =>
        rw [hread] at hlength
        obtain rfl : l₁ = _ := hlength
        cases answer with
        | error e => exact ⟨_, _, _, _, rfl⟩
        | ok head =>
            dsimp only
            split
            · exact ⟨_, _, _, _, rfl⟩
            · obtain ⟨outOfStep', now', log', hmessage⟩ :=
                readExact_changes _ timeout true (ofLittleEndian head)
              exact ⟨_, _, _, _, hmessage⟩

theorem awaitPeer_changes (timeout : Duration) (deadline : Nat)
    (incoming : List (Arrival Incoming)) : ∃ left peer now log,
    (l.awaitPeer timeout deadline incoming).2 =
      { l with socket := { l.socket with incoming := left }, peer, now, log } := by
  induction incoming generalizing l with
  | nil => exact ⟨_, _, _, _, rfl⟩
  | cons a rest ih =>
      unfold awaitPeer
      dsimp only
      split
      · exact ⟨_, _, _, _, rfl⟩
      · split
        · exact ⟨_, _, _, _, rfl⟩
        · split
          · exact ⟨_, _, _, _, rfl⟩
          · split
            · exact ⟨_, _, _, _, rfl⟩
            · split
              · exact ⟨_, _, _, _, rfl⟩
              · obtain ⟨left, peer, now, log, hrest⟩ := ih _
                exact ⟨left, peer, now, log, hrest⟩

end ArmSession.Net.NetworkLink
