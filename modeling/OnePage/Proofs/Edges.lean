import OnePage.Proofs.Conversations

/-! # Edges

Sockets are watched for changes, and a change is reported once. So a connection may wait only
where nothing is left that has been reported: it has received all that was there and has seen no
hangup, or the socket has no room. That is how every connection in the table is (`Parked`). -/

namespace OnePage

namespace Operation

def isReception : Operation → Bool
  | recv .. => true
  | _ => false

/-- Whether an operation has taken all that there was to receive. -/
def Drains : Operation → Prop
  | recv room (.ok data) => data ≠ [] ∧ data.length < room
  | recv _ (.error e) => e = .EAGAIN
  | _ => False

end Operation

/-- Whether a descriptor is made to wait for room. -/
def Occurrence.armsWrite : Occurrence → Bool
  | call (.modify _ _ conditions (.ok ())) => conditions = Interest.write.conditions
  | _ => false

def receptions (ops : List Operation) : List Operation := ops.filter Operation.isReception

/-- Whether nothing makes a descriptor wait for room. -/
def Unarmed (occurrences : List Occurrence) : Prop := ∀ o ∈ occurrences, o.armsWrite = false

/-- How a connection is that waits for its request. -/
structure Receiving (c : Connection) (L : List Occurrence) : Prop where
  interest : c.interest = .read
  quiet : ∀ t ∈ turns L, t.conditions.isHangup = false ∧ t.conditions.error = false
  drained : ∀ op ∈ (receptions (operations L)).getLast?, op.Drains
  unarmed : Unarmed L

/-- How a connection is that waits for room. -/
structure Sending (token : Token) (c : Connection) (L : List Occurrence) : Prop where
  interest : c.interest = .write
  blocked : ∃ op ∈ (transfers (operations L)).getLast?, op.isBlocked
  armed : ∃ before after,
    L = before ++ .call (.modify c.socket token Interest.write.conditions (.ok ())) :: after ∧
    (∃ op ∈ operations before, op.isBlocked) ∧ Unarmed before ∧ Unarmed after

inductive Parked (token : Token) (c : Connection) (L : List Occurrence) : Prop
  | receiving (hs : c.stage = .accepted) (H : Receiving c L)
  | sending {r : Response} (hs : c.stage = .requestReceived) (hr : c.response = some r)
    (H : Sending token c L)

theorem Unarmed.append {L L' : List Occurrence} (H : Unarmed L) (H' : Unarmed L') :
    Unarmed (L ++ L') := List.forall_mem_append.2 ⟨H, H'⟩

theorem unarmed_turn (t : Turn) (fd : Fd) (ops : List Operation) :
    Unarmed (.turn t :: (ops.map (Call.operation fd)).map .call) := by
  intro o ho
  rcases List.mem_cons.1 ho with rfl | ho
  · rfl
  · obtain ⟨call, hcall, rfl⟩ := List.mem_map.1 ho
    obtain ⟨op, -, rfl⟩ := List.mem_map.1 hcall
    rfl

theorem EventQueue.Registration.unarmed {fd : Fd} {token : Token} {result : Outcome}
    {calls : List Call} (H : EventQueue.Registration fd token .read result calls) :
    Unarmed (calls.map .call) := by
  cases H with
  | added | refused => simp [Unarmed, Occurrence.armsWrite]
  | changed =>
    rcases result with e | ⟨⟩ <;> simp [Unarmed, Occurrence.armsWrite, Interest.conditions]

theorem Operation.isTransfer_of_isBlocked {op : Operation} (h : op.isBlocked) : op.isTransfer := by
  cases op with
  | send | sendfile => rfl
  | _ => cases h

theorem getLast?_transfers {ops : List Operation} {last : Operation} (h : last.isBlocked) :
    (transfers (ops ++ [last])).getLast? = some last := by
  have hlast : transfers [last] = [last] :=
    List.filter_cons_of_pos (Operation.isTransfer_of_isBlocked h)
  rw [transfers_append, hlast, List.getLast?_concat]

/-! ## Turns -/

section
variable {fd : Fd} {token : Token} {c c' : Connection} {L : List Occurrence}
variable {ready : Conditions} {files : Files} {page : String} {now : Nanoseconds}
variable {stats stats' : Stats} {ops : List Operation}

/-- What a connection has seen and done after one more turn at which it is to wait. -/
theorem Receiving.wait (H : Receiving c L) {op : Operation} {t : Turn}
    (hi : c'.interest = c.interest) (hh : t.conditions.isHangup = false)
    (he : t.conditions.error = false) (hop : op.isReception) (hd : op.Drains) :
    Receiving c' (L ++ .turn t :: ([op].map (Call.operation fd)).map .call) where
  interest := hi.trans H.interest
  quiet u hu := by
    rw [turns_taken] at hu
    rcases List.mem_append.1 hu with hu | hu
    · exact H.quiet u hu
    · rw [List.mem_singleton.1 hu]
      exact ⟨hh, he⟩
  drained op' hop' := by
    rw [operations_append, operations_turn, operations_operations, receptions, List.filter_append,
      List.filter_cons_of_pos hop, List.filter_nil, List.getLast?_concat] at hop'
    cases hop'
    exact hd
  unarmed := H.unarmed.append (unarmed_turn t fd [op])

/-- The socket has no room from the start, so the connection is made to wait for it. -/
theorem Receiving.block (H : Receiving c L) (before : List Operation) {last : Operation} {t : Turn}
    (hi : c'.interest = .write) (hb : last.isBlocked) (hs : c'.socket = fd) :
    Sending token c' (L ++ .turn t :: ((before ++ [last]).map (Call.operation fd) ++
      [Call.modify fd token c'.interest.conditions (.ok ())]).map .call) where
  interest := hi
  blocked := by
    rw [operations_taken _ _ _ rfl, ← List.append_assoc]
    exact ⟨last, getLast?_transfers hb, hb⟩
  armed := by
    refine ⟨L ++ .turn t :: ((before ++ [last]).map (Call.operation fd)).map .call, [], ?_,
      ⟨last, ?_, hb⟩, H.unarmed.append (unarmed_turn t fd _), fun _ ho => by cases ho⟩
    · rw [hi, hs, List.map_append, List.append_assoc]
      rfl
    · rw [operations_append, operations_turn, operations_operations]
      exact List.mem_append_right _ (List.mem_append_right _ (List.mem_singleton_self last))

/-- The socket has no room still, or is not said to have any. -/
theorem Sending.wait (H : Sending token c L) {t : Turn} (hi : c'.interest = c.interest)
    (hs : c'.socket = c.socket)
    (hops : ops = [] ∨ ∃ before last, ops = before ++ [last] ∧ last.isBlocked) :
    Sending token c' (L ++ .turn t :: (ops.map (Call.operation fd)).map .call) where
  interest := hi.trans H.interest
  blocked := by
    rw [operations_append, operations_turn, operations_operations]
    rcases hops with rfl | ⟨before, last, rfl, hb⟩
    · rw [List.append_nil]
      exact H.blocked
    · rw [← List.append_assoc]
      exact ⟨last, getLast?_transfers hb, hb⟩
  armed := by
    obtain ⟨before, after, hL, hb, hbefore, hafter⟩ := H.armed
    refine ⟨before, after ++ .turn t :: (ops.map (Call.operation fd)).map .call, ?_, hb, hbefore,
      hafter.append (unarmed_turn t fd ops)⟩
    rw [hL, hs, List.append_assoc]
    rfl

end

theorem Lived.parked {page : String} {fd : Fd} {token : Token} {c : Connection}
    {L : List Occurrence} (H : Lived page fd token c L) (hs : c.socket = fd) :
    Parked token c L := by
  induction H with
  | @registered now peer calls hr =>
    have hops : operations ((Call.setNonblocking fd (.ok ()) :: calls).map .call) = [] :=
      hr.operations
    refine .receiving rfl ⟨rfl, ?_, ?_, List.forall_mem_cons.2 ⟨rfl, hr.unarmed⟩⟩
    · rw [turns_calls]
      exact fun t ht => by cases ht
    · rw [hops]
      exact fun op hop => by cases hop
  | @waited c c' L ready files now stats stats' ops H Hh ih =>
    cases ih (Hh.socket.symm.trans hs) with
    | receiving hstage H =>
      cases Hh with
      | nothing he hs' hh => exact .receiving hstage (H.wait rfl hh he rfl rfl)
      | more he hs' hd hle hl hlt hh =>
        refine .receiving hs' (H.wait rfl hh he rfl ⟨hd, ?_⟩)
        rw [Connection.room]
        rw [List.length_append] at hlt
        omega
      | replied _ _ _ _ _ _ _ _ hc =>
        have hi : c.interest = .write := (Connection.continued_wait hc).2.1
        rw [H.interest] at hi
        cases hi
      | notWritable _ hs' | resumed _ hs' => cases hstage.symm.trans hs'
    | sending hstage hr H =>
      have hi := Hh.interest_of_wait
      have hsocket := Hh.socket
      cases Hh with
      | notWritable _ hs' => exact .sending hstage hr (H.wait hi hsocket (.inl rfl))
      | resumed _ _ _ _ _ Hd hc =>
        obtain ⟨hresult, -, rfl⟩ := Connection.continued_wait hc
        exact .sending hstage rfl (H.wait hi hsocket (.inr (Hd.blocked hresult)))
      | nothing _ hs' | more _ hs' | replied _ hs' => cases hstage.symm.trans hs'
  | @rearmed c c' L ready files now stats stats' ops H Hh ih =>
    have hsocket := Hh.socket
    cases ih (hsocket.symm.trans hs) with
    | receiving hstage H =>
      cases Hh with
      | replied _ _ _ _ _ _ _ Hd hc =>
        obtain ⟨hresult, -, rfl⟩ := Connection.continued_rearm hc
        obtain ⟨before, last, rfl, hb⟩ := Hd.blocked hresult
        exact .sending rfl rfl (H.block (_ :: _ :: before) rfl hb hs)
      | resumed _ hs' => cases hstage.symm.trans hs'
    | sending hstage hr H =>
      cases Hh with
      | replied _ hs' => cases hstage.symm.trans hs'
      | resumed _ _ _ _ _ _ hc =>
        exact absurd H.interest (Connection.continued_rearm hc).2.1

theorem Parked.edge {token : Token} {c : Connection} {L : List Occurrence}
    (H : Parked token c L) : c.interest.conditions.edge := by
  cases H with
  | receiving _ H => rw [H.interest]; rfl
  | sending _ _ H => rw [H.interest]; rfl

/-- A connection in the table is told of each change once, and waits for no change that it has been
told of already. -/
theorem no_edge_lost {m : Moment} (H : Reachable m) {token : Token} {c : Connection}
    (ht : m.server.connections.get? token = some c) :
    (∃ conditions, m.kernel.watches.get? c.socket = some ⟨token, conditions⟩ ∧ conditions.edge) ∧
    (∃ L, Current m.history c.socket L) ∧
    ∀ L, Current m.history c.socket L → Parked token c L := by
  obtain ⟨⟨L, hL⟩, hlived⟩ := H.lived ht
  have hparked : ∀ L, Current m.history c.socket L → Parked token c L := fun L hL =>
    (hlived L hL).parked rfl
  exact ⟨⟨_, H.registered.watched ht, (hparked L hL).edge⟩, ⟨L, hL⟩, hparked⟩

/-- A server that waits for room after one byte of its page. -/
def Moment.blocked : Moment :=
  Moment.greeted.report
    { event := ⟨1, { input := true }⟩
      pending := {
        recv := [.ok (Text.bytes "GET / x\n")]
        sendfile := [.ok 1, .error .EAGAIN] } }
    [.write "./index.html" (Text.bytes "hi")]

theorem Reachable.blocked : Reachable .blocked := Reachable.greeted.report _ _

theorem no_edge_lost_blocked :
    ∃ c, Moment.blocked.server.connections.get? 1 = some c ∧
      c.response = some ⟨6, 63, 2, 1⟩ ∧
      ∃ L, Current Moment.blocked.history c.socket L ∧ Parked 1 c L := by
  have hc : ∃ c, Moment.blocked.server.connections.get? 1 = some c ∧
      c.response = some ⟨6, 63, 2, 1⟩ := ⟨_, rfl, rfl⟩
  obtain ⟨c, ht, hr⟩ := hc
  obtain ⟨-, ⟨L, hL⟩, hparked⟩ := no_edge_lost Reachable.blocked ht
  exact ⟨c, ht, hr, L, hL, hparked L hL⟩

end OnePage
