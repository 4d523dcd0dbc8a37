import OnePage.Proofs.Effects

/-! # What a turn depends on

A connection's turn adds to the totals whatever they are, and it reads nothing but the page and
the file that is being sent. -/

namespace OnePage

/-! ## Totals add up -/

/-- Totals of one thing and another. -/
def Stats.add (s t : Stats) : Stats :=
  ⟨s.connections + t.connections, s.requests + t.requests, s.received + t.received,
    s.sent + t.sent⟩

theorem Stats.add_assoc (s t u : Stats) : (s.add t).add u = s.add (t.add u) := by
  simp [Stats.add, Nat.add_assoc]

theorem Stats.add_comm (s t : Stats) : s.add t = t.add s := by
  simp [Stats.add, Nat.add_comm]

namespace Talk
variable {α β : Type}

/-- Whether a talk does the same whatever the totals are, and adds to them. -/
def Tallies (talk : Talk α) : Prop :=
  ∀ pending done, ∃ a pending' done' tally, ∀ stats,
    talk ⟨pending, done, stats⟩ = (a, ⟨pending', done', stats.add tally⟩)

namespace Tallies

theorem pure (a : α) : Tallies (Pure.pure a : Talk α) :=
  fun pending done => ⟨a, pending, done, {}, fun _ => rfl⟩

theorem bind {x : Talk α} {f : α → Talk β} (H : Tallies x) (H' : ∀ a, Tallies (f a)) :
    Tallies (x >>= f) := by
  intro pending done
  obtain ⟨a, pending', done', tally, h⟩ := H pending done
  obtain ⟨b, pending'', done'', tally', h'⟩ := H' a pending' done'
  refine ⟨b, pending'', done'', tally.add tally', fun stats => ?_⟩
  rw [StateM.bind_apply, h, h', Stats.add_assoc]

theorem ite {p : Prop} [Decidable p] {x y : Talk α} (H : Tallies x) (H' : Tallies y) :
    Tallies (if p then x else y) := by
  split
  · exact H
  · exact H'

/-- What leaves the totals alone, and does not look at them. -/
theorem of_unread {talk : Talk α} (h : ∀ pending done stats, talk ⟨pending, done, stats⟩ =
    ((talk ⟨pending, done, {}⟩).1, { (talk ⟨pending, done, {}⟩).2 with stats := stats })) :
    Tallies talk :=
  fun pending done => ⟨_, _, _, {}, h pending done⟩

theorem record (op : Operation) : Tallies (Talk.record op) := .of_unread fun _ _ _ => rfl

theorem addRequest : Tallies (Talk.count (·.addRequest)) :=
  fun _ _ => ⟨(), _, _, { requests := 1 }, fun _ => rfl⟩

theorem addReceived (n : Nat) : Tallies (Talk.count (·.addReceived n)) :=
  fun _ _ => ⟨(), _, _, { received := n }, fun _ => rfl⟩

theorem addSent (n : Nat) : Tallies (Talk.count (·.addSent n)) :=
  fun _ _ => ⟨(), _, _, { sent := n }, fun _ => rfl⟩

theorem recv (room : Nat) : Tallies (Talk.recv room) := .of_unread fun _ _ _ => rfl

theorem send (data : List UInt8) : Tallies (Talk.send data) := .of_unread fun _ _ _ => rfl

theorem sendfile (content : Content) (offset asked : Nat) :
    Tallies (Talk.sendfile content offset asked) := .of_unread fun _ _ _ => rfl

theorem takeError : Tallies Talk.takeError := by
  refine .of_unread fun pending done stats => ?_
  cases h : pending.takeError with
  | nil | cons e rest => simp [Talk.takeError, h, Talk.record]

end Tallies

end Talk

open Talk (Tallies)

namespace Response

end Response

namespace Connection

end Connection

/-! ## Files that are read -/

namespace Response

theorem sendHeader_file (r : Response) (steps : Nat) (x : Exchange) :
    (r.sendHeader steps x).1.2.file = r.file := by
  induction steps generalizing r x with
  | zero => rfl
  | succ steps ih =>
    by_cases hh : r.headerSent < header.length
    case neg => simp [sendHeader, hh]
    simp only [sendHeader, hh, if_true, StateM.bind_apply]
    obtain ⟨result, x', hx⟩ :
      ∃ result x', Talk.send (header.drop r.headerSent) x = (result, x') := ⟨_, _, rfl⟩
    rw [hx]
    rcases result with e | n
    · cases e <;> rfl
    · cases n with
      | zero => rfl
      | succ n => exact ih _ _

theorem send_congr {files files' : Files} {r : Response}
    (h : files'.content? r.file = files.content? r.file) : r.send files' = r.send files := by
  funext x
  have hfile := r.sendHeader_file (header.length - r.headerSent) x
  obtain ⟨result, r', x', hx⟩ : ∃ result r' x',
    r.sendHeader (header.length - r.headerSent) x = ((result, r'), x') := ⟨_, _, _, rfl⟩
  rw [hx] at hfile
  simp only [send, StateM.bind_apply, hx]
  rcases result with e | (_ | _)
  · rfl
  · dsimp only at hfile ⊢
    rw [hfile, h]
  · rfl

end Response

namespace Connection
variable {files files' : Files} {c : Connection} {r : Response} {page : String}

theorem sendResponse_congr
    (h : ∀ r, c.response = some r → files'.content? r.file = files.content? r.file) :
    c.sendResponse files' = c.sendResponse files := by
  unfold sendResponse
  cases hr : c.response with
  | none => rfl
  | some r => simp only [Response.send_congr (h r hr)]

end Connection

end OnePage
