import JobPlane.Proofs.Stream.Parting

/-!
# Giving up against a far end that sends at once

A far end that sends all it has as fast as there is room, and then closes or stays, is one of those that a connection can be given up
against: what draining comes to with it is what some parting comes to (`exists_follow_giveUp`). A turn that finds nothing to do stands for
the passing of all the time there is.
-/

namespace JobPlane.Parting

open Proxy

variable {limit : Nat} {s s' : Parting}

/-- Waiting and a last turn end a parting in which there is nothing to do but to wait. -/
theorem exists_timeUp (hgoing : s.drain.timedOut = none) (hstep : s.drain.step s.link = none) (hclock : s.clock ≤ limit) :
    ∃ moves s', follow (step limit) s moves = some s' ∧ s'.drain = s.drain.expire := by
  induction hleft : limit - s.clock generalizing s with
  | zero =>
    have hturn : s.step limit .turn = some (s.after s.drain.expire s.link) := by
      simp only [step, turn, hstep]
      exact if_pos ⟨hgoing, by omega⟩
    refine ⟨[.turn], _, (follow_singleton _ _).trans hturn, ?_⟩
    unfold after
    split <;> rfl
  | succ n ih =>
    have hwait : s.step limit .wait = some { s with clock := s.clock + 1 } := by
      have hidle : s.turn limit = none := by
        simp only [turn, hstep]
        exact if_neg (by omega)
      simp [step, hidle]
    obtain ⟨moves, s', hfollow, hdrain⟩ := ih (s := { s with clock := s.clock + 1 }) hgoing hstep
      (by simp only; omega) (by simp only; omega)
    exact ⟨.wait :: moves, s', follow_cons_eq_some.mpr ⟨_, hwait, hfollow⟩, hdrain⟩

/-- Draining is over when its time is. -/
theorem expire_isSome (d : Drain) : d.expire.timedOut.isSome = true := by
  unfold Drain.expire
  split
  · assumption
  · rfl

/-- Draining that is over stays as it is, however long it goes on. -/
theorem against_over {d : Drain} (hover : d.timedOut.isSome = true) (fuel : Nat) (l : Link) (peer : Drain.Peer) :
    (Drain.against fuel d l peer).1 = d := by
  have hexpire : d.expire = d := if_pos hover
  have hnext : ∀ fuel l peer, (Drain.against.next fuel d l peer).1 = d := by
    intro fuel l peer
    rw [Drain.against.next, Drain.step, if_pos hover]
    exact hexpire
  cases fuel with
  | zero =>
    rw [Drain.against]
    exact hexpire
  | succ fuel =>
    rw [Drain.against]
    split
    split
    · exact hnext _ _ _
    · exact hnext _ _ _

/-- A far end that has gone away has left its pipes as they are left then. -/
def Forsaken (s : Parting) : Prop := s.far.receiver.gone = true → s.link.flip.drop.flip = s.link

/-- What the far end does in its turn of a draining is done by some moves, and leaves no more to carry. -/
theorem exists_peer_turn (hforsaken : Forsaken s) (limit fuel : Nat) (peer : Drain.Peer) :
    ∃ moves t peer', follow (step limit) s moves = some t ∧ Forsaken t ∧ t.drain = s.drain ∧ t.clock = s.clock ∧
      2 * peer'.sends.length + t.link.incoming.buffer.length ≤ 2 * peer.sends.length + s.link.incoming.buffer.length ∧
      Drain.against (fuel + 1) s.drain s.link peer = Drain.against.next fuel t.drain t.link peer' := by
  rw [Drain.against]
  rcases hwrite : s.link.incoming.write peer.sends with ⟨w, q⟩
  have hlink : s.link.flip.write peer.sends = (w, { s.link.flip with outgoing := q }) := by
    simp only [Link.write, Link.flip, hwrite]
  simp only [hlink]
  split
  · -- it gets some bytes in
    rename_i n
    obtain ⟨hopen, -, hn, hq⟩ := Pipe.write_took hwrite
    have hthere : s.far.receiver.gone = false := by
      refine Bool.eq_false_iff.mpr fun hgone => ?_
      have hclosed : s.link.flip.drop.flip.incoming.closed = true := rfl
      rw [hforsaken hgone, hopen] at hclosed
      cases hclosed
    have hstep : s.step limit (.far (.write peer.sends)) = some { s with
        far := { s.far with sender := s.far.sender.note peer.sends (.took (n + 1)) }
        link := { s.link with incoming := q } } := by
      simp only [step, hthere, Bool.false_eq_true, if_false, FarEnd.act, hlink]
      rfl
    refine ⟨[.far (.write peer.sends)], _, { peer with sends := peer.sends.drop (n + 1) }, (follow_singleton _ _).trans hstep,
      ?_, rfl, rfl, ?_, rfl⟩
    · intro hgone
      exact absurd (hgone.symm.trans hthere) (by simp)
    · simp only [hq, List.length_append, List.length_take, List.length_drop]
      omega
  · by_cases hdone : (peer.sends.isEmpty && peer.closes) = true
    · rw [if_pos hdone]
      by_cases hgone : s.far.receiver.gone = true
      · exact ⟨[], s, peer, rfl, hforsaken, rfl, rfl, Nat.le_refl _, by rw [hforsaken hgone]⟩
      · have hstep : s.step limit (.far .drop) = some { s with
            far := ⟨{ s.far.sender with closed := true }, { s.far.receiver with gone := true }⟩
            link := s.link.flip.drop.flip, closedAt := s.closedAt.or (some s.clock) } := if_neg hgone
        exact ⟨[.far .drop], _, peer, (follow_singleton _ _).trans hstep, fun _ => rfl, rfl, rfl, Nat.le_refl _, rfl⟩
    · rw [if_neg hdone]
      exact ⟨[], s, peer, rfl, hforsaken, rfl, rfl, Nat.le_refl _, rfl⟩

/-- What our end reads changes nothing about a far end that has gone away. -/
theorem Forsaken.turn (h : Forsaken s) (ht : Turn limit s s') (hgoing : s'.drain.timedOut = none) : Forsaken s' := by
  intro hgone
  cases ht with
  | read =>
    have hlink := h hgone
    have hclosed : s.link.incoming.closed = true := congrArg (fun l => l.incoming.closed) hlink.symm
    have hout : s.link.outgoing.abandon = s.link.outgoing := congrArg Link.outgoing hlink
    simp only [Link.flip, Link.drop, Pipe.close, hclosed, hout]
  | ended => cases hgoing
  | timeUp => cases hgoing

/-- Draining against a far end that sends as fast as there is room comes to what some parting comes to. -/
theorem exists_follow_against {fuel : Nat} {peer : Drain.Peer} (hgoing : s.drain.timedOut = none) (hforsaken : Forsaken s)
    (hclock : s.clock ≤ limit) (hfuel : 2 * peer.sends.length + s.link.incoming.buffer.length < fuel) :
    ∃ moves s', follow (step limit) s moves = some s' ∧ s'.drain = (Drain.against fuel s.drain s.link peer).1 ∧
      s'.drain.timedOut.isSome = true := by
  induction fuel generalizing s peer with
  | zero => omega
  | succ fuel ih =>
    obtain ⟨before, t, peer', hbefore, ht, hdrain, hsame, hless, hnext⟩ := exists_peer_turn hforsaken limit fuel peer
    rw [hnext, Drain.against.next]
    have hgoing : t.drain.timedOut = none := by rw [hdrain, hgoing]
    have hclock : t.clock ≤ limit := hsame ▸ hclock
    split
    · rename_i d l hstep
      have hturn : t.step limit .turn = some (t.after d l) := by
        simp only [step, turn, hstep]
      by_cases hover : d.timedOut.isSome = true
      · have hafter : (t.after d l).drain = d := by rw [after, if_pos hover]
        refine ⟨before ++ [.turn], t.after d l, ?_, ?_, ?_⟩
        · exact follow_append_eq_some.mpr ⟨t, hbefore, (follow_singleton _ _).trans hturn⟩
        · rw [against_over hover, hafter]
        · rw [hafter, hover]
      · have hafter : t.after d l = { t with drain := d, link := l } := if_neg hover
        rw [hafter] at hturn
        have hwent := turn_of_step hturn
        have hgoing' : d.timedOut = none := by simpa using hover
        have hread : l.incoming.buffer.length < t.link.incoming.buffer.length := hwent.buffer_lt hgoing'
        have hfuel' : 2 * peer'.sends.length + l.incoming.buffer.length < fuel := by omega
        obtain ⟨moves, s', hfollow, hs'⟩ := ih (s := { t with drain := d, link := l }) hgoing'
          (ht.turn hwent hgoing') hclock hfuel'
        refine ⟨before ++ .turn :: moves, s', ?_, hs'⟩
        exact follow_append_eq_some.mpr ⟨t, hbefore, follow_cons_eq_some.mpr ⟨_, hturn, hfollow⟩⟩
    · rename_i hstep
      obtain ⟨moves, s', hfollow, hs'⟩ := exists_timeUp hgoing hstep hclock
      refine ⟨before ++ moves, s', follow_append_eq_some.mpr ⟨t, hbefore, hfollow⟩, hs', ?_⟩
      rw [hs']
      exact expire_isSome _

/-- A connection that is given up against a far end that sends as fast as there is room comes to what some parting comes to. -/
theorem exists_follow_giveUp (ms : Nat) (l : Link) (peer : Drain.Peer) :
    ∃ moves s, follow (step ms) (start l) moves = some s ∧ s.drain = (Drain.giveUp ms l peer).1 ∧ s.drain.timedOut.isSome = true := by
  refine exists_follow_against (s := start l) rfl (fun hgone => by cases hgone) (Nat.zero_le _) ?_
  change 2 * (if ms = 0 then ⟨[], false⟩ else peer : Drain.Peer).sends.length + l.incoming.buffer.length <
    2 * peer.sends.length + l.incoming.buffer.length + 1
  split
  · rw [List.length_nil]
    omega
  · omega

end JobPlane.Parting
