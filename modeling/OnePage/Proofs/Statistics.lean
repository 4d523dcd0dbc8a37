import OnePage.Proofs.Indifference
import OnePage.Proofs.Stopping
import OnePage.Proofs.Totals

/-! # Statistics

The totals of a server are those of what has happened, at any time and up to the last lines of its
log. No byte that is received or written is left out, whatever becomes of the connection, and no
connection or request is counted twice. -/

namespace OnePage

/-- What waits for a request has all that it has received in its buffer. -/
theorem Reachable.buffer {m : Moment} (H : Reachable m) {token : Token} {c : Connection}
    (ht : m.server.connections.get? token = some c) (hs : c.stage = .accepted) :
    ∃ L, Current m.history c.socket L ∧ received (operations L) = c.request := by
  obtain ⟨⟨L, hL⟩, Hlived⟩ := H.lived ht
  cases (Hlived L hL).underway with
  | awaiting _ _ Ha => exact ⟨L, hL, Ha.received⟩
  | answered hs' =>
    rw [hs] at hs'
    cases hs'

namespace Moment
open Server

/-- The log of a server that has been told to stop ends with its totals. -/
theorem ShutsDown.totals {m : Moment} {result : (Except ServeError Unit × Server) × Kernel}
    (Hd : m.ShutsDown result) {u : Usage} (hu : (Sys.usage m.drained).1 = .ok u) :
    result.1.1 = .ok () ∧ ∃ before told, result.2.trace = before ++ told.toArray ∧
      m.server.log.Tells ((summary (.ok u) result.1.2.stats).map (.info, ·)) told := by
  obtain ⟨_, closing, told, -, -, -, ht, htrace, -⟩ := Hd.calls
  rw [hu, ← Hd.stats] at ht
  refine ⟨by rw [Hd.outcome, hu, summarized], m.kernel.trace ++ closing.toArray, told, ?_, ht⟩
  simp [htrace]

end Moment

open Server in
/-- **Statistics are conserved.** The totals of a server are those of what has happened: the bytes
that have been received and written, whatever has become of the connections, the sockets that have
been registered, and those of them on which the line of a request has come. A connection in the
table that waits for its request has all that it has received in its buffer. The connections that
have been counted are those in the table and those that have been closed, and no request is counted
but on one of them. If a server ends because it was told to stop, and the kernel tells the processor
time, then these totals are in the last lines of its log. -/
theorem statistics_conserved {m : Moment} (H : Reachable m) :
    m.server.stats = .ofHistory m.history ∧
    (∀ token c, m.server.connections.get? token = some c → c.stage = .accepted →
      ∃ L, Current m.history c.socket L ∧ received (operations L) = c.request) ∧
    m.server.stats.connections =
      m.server.connections.size + (lives m.history).countP dismissed ∧
    m.server.stats.requests ≤ m.server.stats.connections ∧
    ∀ rounds n u,
      let served := (m.act .announce).polls (rounds.take n)
      (m.act .announce).GoesOn (rounds.take n) → served.kernel.stopped = true →
      (Sys.usage served.drained).1 = .ok u →
      let last := m.run (m.serveActs rounds)
      serve rounds m.server m.kernel = ((.ok (), last.server), last.kernel) ∧
        ∃ before told, last.kernel.trace = before ++ told.toArray ∧
          m.server.log.Tells ((summary (.ok u) (.ofHistory last.history)).map (.info, ·)) told := by
  refine ⟨H.counts.stats, fun _ _ ht hs => H.buffer ht hs,
    H.counts.connections.trans H.counts.size, H.requests_le, ?_⟩
  intro rounds n u served hgo hstop hu last
  have Hserved : Reachable served := (H.act .announce).polls (rounds.take n)
  obtain ⟨next, hserve⟩ := hgo.serve
  have Hd : served.ShutsDown (serve rounds m.server m.kernel) :=
    hserve ▸ Moment.shutsDown Hserved hstop next
  obtain ⟨hok, before, told, htrace, ht⟩ := Hd.totals hu
  obtain ⟨hserver, hkernel⟩ := m.comesTo_serve rounds
  have hlog : served.server.log = m.server.log := by
    obtain ⟨acts, hacts, -⟩ := (m.act .announce).polls_acts (rounds.take n)
    have hmade := (m.made_run (.announce :: acts)).2
    rwa [Moment.run_cons, ← hacts] at hmade
  have hstats : (serve rounds m.server m.kernel).1.2.stats = .ofHistory last.history := by
    rw [hserver]
    exact (H.run _).counts.stats
  rw [hlog, hstats] at ht
  refine ⟨Prod.ext (Prod.ext hok hserver) hkernel, before, told, ?_, ht⟩
  rw [← htrace, hkernel]

/-- A server that has had one request, and the same server told to stop. -/
theorem statistics_conserved_blocked :
    let last := Moment.blocked.run (Moment.blocked.serveActs [{ stop := true }])
    let stats : Stats := { connections := 1, requests := 1, received := 8, sent := 64 }
    .ofHistory Moment.blocked.history = stats ∧
    (lives Moment.blocked.history).countP dismissed = 0 ∧
    ∃ before told, last.kernel.trace = before ++ told.toArray ∧
      LogSink.stdout.Tells ((Server.summary (.ok {}) (.ofHistory last.history)).map (.info, ·))
        told := by
  intro last stats
  obtain ⟨hstats, -, hsize, -, hends⟩ := statistics_conserved Reachable.blocked
  have htotals : Moment.blocked.server.stats = stats := by decide +kernel
  have hone : Moment.blocked.server.connections.size = 1 := by decide +kernel
  obtain ⟨-, h⟩ := hends [{ stop := true }] 1 {}
    (Moment.goesOn_iff.2 ⟨by simp, .inr ⟨by decide +kernel, by simp⟩⟩) (by decide +kernel)
    (by decide +kernel)
  refine ⟨hstats.symm.trans htotals, ?_, h⟩
  rw [htotals, hone] at hsize
  exact (Nat.add_left_cancel hsize).symm

end OnePage
