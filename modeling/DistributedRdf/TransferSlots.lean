import DistributedRdf.DataTransfers
import Mathlib.Data.List.ReduceOption

namespace DistributedRdf.Nio

open Java Execution List Outcome Option

/-!
# Accounts of the transfer slots

The slots in use are compared with the transfers that have started and have
neither ended nor failed.
-/

namespace NIOAgent

variable
  {slots : Slots}
  {surroundings : Surroundings}
  {agent : NIOAgent}

/-- The connections that hold a slot to send. -/
def slotHolders (agent : NIOAgent) : List Connection :=
  agent.trasmittingConnections.reduceOption

/-- Slots to receive; connections are opened one after the other. -/
structure IncomingAccounts (slots : Slots) (agent : NIOAgent) : Prop where
  receives : agent.receiveTransfers = agent.ongoingTransfers.length
  bounded : agent.receiveTransfers ≤ slots.MAX_RECEIVE_TRANSFERS
  opened : ∀ entry ∈ agent.ongoingTransfers, entry.1 < agent.nextConnection
  distinct : (agent.ongoingTransfers.map (·.1)).Nodup
  sourced : ∀ dr ∈ agent.pendingRequests, dr.source.sources ≠ []

/-- Slots to send -/
structure OutgoingAccounts (slots : Slots) (agent : NIOAgent) : Prop where
  places : agent.trasmittingConnections.length = slots.MAX_SEND_TRANSFERS
  sends : agent.sendTransfers = agent.slotHolders.length
  holders : agent.slotHolders.Perm agent.slottedSends

/-! ## Slots to send -/

variable {places : List (Option Connection)}

theorem occupyPlace_spec
    (c : Connection)
    (free : places.reduceOption.length < places.length) :
    (occupyPlace c places).length = places.length ∧
      (occupyPlace c places).reduceOption.Perm (c :: places.reduceOption) := by
  induction places with
  | nil => exact absurd free (Nat.lt_irrefl 0)
  | cons place places hypothesis =>
      cases place with
      | none => simp [occupyPlace]
      | some other =>
          have freeLater : places.reduceOption.length < places.length := by
            simpa using free
          rcases hypothesis freeLater with ⟨length, holders⟩
          constructor
          · simp [occupyPlace, length]
          · rw [occupyPlace, reduceOption_cons_of_some,
              reduceOption_cons_of_some]
            calc
              (other :: (occupyPlace c places).reduceOption).Perm
                  (other :: c :: places.reduceOption) :=
                holders.cons other
              List.Perm _ (c :: other :: places.reduceOption) :=
                List.Perm.swap c other _

variable {c : Connection}

theorem freePlace_eq_none
    (free : freePlace c places = none) :
    c ∉ places.reduceOption := by
  induction places with
  | nil => simp
  | cons place places hypothesis =>
      rw [freePlace] at free
      by_cases found : place = some c
      · simp [found] at free
      · rw [if_neg found, map_eq_none_iff] at free
        have notLater := hypothesis free
        cases place with
        | none => simpa using notLater
        | some other =>
            have different : c ≠ other := fun same => found (by rw [same])
            simp [notLater, different]

theorem freePlace_eq_some
    {places freed : List (Option Connection)}
    (free : freePlace c places = some freed) :
    freed.length = places.length ∧
      places.reduceOption.Perm (c :: freed.reduceOption) := by
  induction places generalizing freed with
  | nil => simp [freePlace] at free
  | cons place places hypothesis =>
      rw [freePlace] at free
      by_cases found : place = some c
      · rw [if_pos found, some.injEq] at free
        subst freed
        simp [found]
      · rw [if_neg found, map_eq_some_iff] at free
        rcases free with ⟨later, freeLater, same⟩
        subst freed
        rcases hypothesis freeLater with ⟨length, holders⟩
        constructor
        · simp [length]
        · cases place with
          | none => simpa using holders
          | some other =>
              rw [reduceOption_cons_of_some,
                reduceOption_cons_of_some]
              calc
                (other :: places.reduceOption).Perm
                    (other :: c :: later.reduceOption) :=
                  holders.cons other
                List.Perm _ (c :: other :: later.reduceOption) :=
                  List.Perm.swap c other _

/-! ## What the operations leave alone -/

def sendSide (agent : NIOAgent) :
    Int × List (Option Connection) × List Connection :=
  (agent.sendTransfers, agent.trasmittingConnections, agent.slottedSends)

def receiveSide (agent : NIOAgent) :
    Int × List (Connection × String) × Connection × List DataRequest :=
  (agent.receiveTransfers, agent.ongoingTransfers, agent.nextConnection,
    agent.pendingRequests)

variable {after : NIOAgent}

theorem OutgoingAccounts.congr
    (accounts : OutgoingAccounts slots agent)
    (same : after.sendSide = agent.sendSide) :
    OutgoingAccounts slots after := by
  simp only [sendSide, Prod.mk.injEq] at same
  rcases same with ⟨sends, places, slotted⟩
  have holders : after.slotHolders = agent.slotHolders := by
    rw [slotHolders, places, slotHolders]
  exact {
    places := by rw [places, accounts.places]
    sends := by rw [sends, holders, accounts.sends]
    holders := by rw [holders, slotted]; exact accounts.holders
  }

theorem IncomingAccounts.congr
    (accounts : IncomingAccounts slots agent)
    (same : after.receiveSide = agent.receiveSide) :
    IncomingAccounts slots after := by
  simp only [receiveSide, Prod.mk.injEq] at same
  rcases same with ⟨receives, ongoing, opened, pending⟩
  exact {
    receives := by rw [receives, ongoing, accounts.receives]
    bounded := by rw [receives]; exact accounts.bounded
    opened := by rw [ongoing, opened]; exact accounts.opened
    distinct := by rw [ongoing]; exact accounts.distinct
    sourced := by rw [pending]; exact accounts.sourced
  }

@[simp] theorem sendSide_shutdownIfReady :
    agent.shutdownIfReady.sendSide = agent.sendSide := by
  unfold shutdownIfReady
  split <;> rfl

@[simp] theorem receiveSide_shutdownIfReady :
    agent.shutdownIfReady.receiveSide = agent.receiveSide := by
  unfold shutdownIfReady
  split <;> rfl

variable
  {next : NIOAgent}
  {dr : DataRequest}

theorem sendSide_nextRequest
    (isNext : agent.nextRequest slots = some (next, dr)) :
    next.sendSide = agent.sendSide := by
  unfold nextRequest tryAcquireReceiveSlot at isNext
  split at isNext
  · cases isNext
  · split at isNext
    · next acquired =>
        split at acquired
        · cases acquired
          cases isNext
          rfl
        · cases acquired
    · cases isNext

@[simp] theorem sendSide_startTransfer (dr : DataRequest) (uri : NIOURI) :
    (agent.startTransfer surroundings dr uri).sendSide = agent.sendSide := by
  by_cases starts : surroundings.startsConnection agent.nextConnection
  · simp [startTransfer, sendSide, starts]
  · simp [startTransfer, sendSide, starts]

theorem sendSide_requestWithin (rounds : Nat) :
    (agent.requestWithin slots surroundings rounds).state.sendSide =
      agent.sendSide := by
  induction rounds generalizing agent with
  | zero => rfl
  | succ rounds hypothesis =>
      rw [requestWithin]
      cases isNext : agent.nextRequest slots with
      | none => rfl
      | some found =>
          rcases found with ⟨next, dr⟩
          have nextSame := sendSide_nextRequest isNext
          simp only
          cases dr.source.getFirstURI with
          | none => exact nextSame
          | some uri =>
              calc
                _ = (next.startTransfer surroundings dr uri).sendSide :=
                  hypothesis
                _ = next.sendSide :=
                  sendSide_startTransfer dr uri
                _ = agent.sendSide :=
                  nextSame

@[simp] theorem sendSide_requestTransfers :
    (agent.requestTransfers slots surroundings).state.sendSide =
      agent.sendSide :=
  sendSide_requestWithin _

/-- What serving requests leaves alone -/
def bothSides (agent : NIOAgent) :=
  (agent.sendSide, agent.receiveSide)

variable (dataId : String)

theorem bothSides_receivedValue
    (achieved : Option (List DataRequest)) :
    (agent.receivedValue dataId achieved).state.bothSides =
      agent.bothSides := by
  cases achieved with
  | none => rfl
  | some achieved => rfl

variable (t : Transfer)

theorem bothSides_replicate
    (entries : List (String × List DataRequest)) :
    (replicate surroundings t agent entries).state.bothSides =
      agent.bothSides := by
  induction entries generalizing agent with
  | nil => rfl
  | cons entry entries hypothesis =>
      rcases entry with ⟨targetName, reqs⟩
      have received : (agent.receivedValue targetName reqs).state.bothSides =
          agent.bothSides :=
        bothSides_receivedValue targetName reqs
      rw [replicate]
      by_cases isFile : t.isFile
      · rw [if_pos isFile]
        by_cases copies : surroundings.copies targetName
        · rw [if_pos copies]
          apply andThen_keeps bothSides received
          intro served _ same
          by_cases last : entries = []
          · rw [if_pos last]
            exact same
          · rw [if_neg last]
            exact same
        · rw [if_neg copies]
          exact hypothesis
      · rw [if_neg isFile]
        by_cases deserializes : surroundings.deserializes
        · rw [if_pos deserializes]
          apply andThen_keeps bothSides received
          intro served _ same
          exact hypothesis.trans same
        · rw [if_neg deserializes]
          exact hypothesis

theorem bothSides_achieve
    (requests : List DataRequest) :
    (agent.achieve surroundings dataId t requests).state.bothSides =
      agent.bothSides := by
  unfold achieve
  split
  · exact bothSides_receivedValue _ _
  · apply andThen_keeps bothSides (bothSides_receivedValue _ _)
    intro served _ same
    exact (bothSides_replicate t _).trans same

/-- The slots to send are not concerned by the end of an incoming transfer. -/
theorem sendSide_endTransfer
    {answer : NIOAgent → String → List DataRequest → Outcome NIOAgent Unit}
    (answer_same : ∀ agent dataId requests,
      (answer agent dataId requests).state.bothSides = agent.bothSides)
    (c : Connection) :
    (agent.endTransfer slots surroundings c answer).state.sendSide =
      agent.sendSide := by
  unfold endTransfer
  cases agent.ongoingTransfers.lookup c with
  | none => rfl
  | some dataId =>
      simp only
      split
      · rfl
      · apply andThen_keeps sendSide
        · exact congrArg Prod.fst (answer_same _ _ _)
        · intro served _ same
          apply andThen_keeps sendSide
          · exact sendSide_requestTransfers.trans same
          · intro requested _ same
            exact sendSide_shutdownIfReady.trans same

variable
  (c)
  (d : DataToSend)

theorem receiveSide_sendData :
    (agent.sendData c d).receiveSide = agent.receiveSide := by
  unfold sendData
  split <;> rfl

theorem receiveSide_dataDemand :
    (agent.dataDemand slots c d).receiveSide = agent.receiveSide := by
  by_cases free : agent.sendTransfers < slots.MAX_SEND_TRANSFERS
  · simp only [dataDemand, tryAcquireSendSlot, free, if_true]
    exact receiveSide_sendData c d
  · simp only [dataDemand, tryAcquireSendSlot, free, if_false]
    exact receiveSide_sendData c d

theorem receiveSide_writeFinished :
    (agent.writeFinished c).receiveSide = agent.receiveSide := by
  unfold writeFinished releaseSendSlot
  split
  · rfl
  · exact receiveSide_shutdownIfReady

theorem sendSide_addTransferRequest (dr : DataRequest) :
    (agent.addTransferRequest dr).sendSide = agent.sendSide := by
  unfold addTransferRequest
  split <;> rfl

theorem sendSide_submit
    (type : DataType)
    (source : Data)
    (target : String) :
    (agent.submit type source target).sendSide = agent.sendSide :=
  sendSide_addTransferRequest _

/-! ## Accounts of the slots to send -/

namespace OutgoingAccounts

theorem bounded (accounts : OutgoingAccounts slots agent) :
    agent.sendTransfers ≤ slots.MAX_SEND_TRANSFERS := by
  have fewer : agent.slotHolders.length ≤ slots.MAX_SEND_TRANSFERS :=
    accounts.places ▸ reduceOption_length_le _
  rw [accounts.sends]
  exact_mod_cast fewer

theorem sendData
    (accounts : OutgoingAccounts slots agent)
    (c : Connection)
    (d : DataToSend) :
    OutgoingAccounts slots (agent.sendData c d) := by
  unfold NIOAgent.sendData
  split
  · exact accounts.congr rfl
  · exact accounts

/-- A slot is only taken for data that can be sent. -/
theorem dataDemand
    (accounts : OutgoingAccounts slots agent)
    (c : Connection)
    {d : DataToSend}
    (sendable : d.isMissing → slots.MAX_SEND_TRANSFERS ≤ agent.sendTransfers) :
    OutgoingAccounts slots (agent.dataDemand slots c d) := by
  by_cases free : agent.sendTransfers < slots.MAX_SEND_TRANSFERS
  · have present : ¬d.isMissing := fun missing =>
      absurd (sendable missing) (Int.not_le.mpr free)
    have fewer : agent.slotHolders.length < slots.MAX_SEND_TRANSFERS := by
      rw [accounts.sends] at free
      exact_mod_cast free
    rcases occupyPlace_spec c (accounts.places ▸ fewer) with
      ⟨length, holders⟩
    simp only [NIOAgent.dataDemand, tryAcquireSendSlot, free, if_true, present]
    apply sendData
    exact {
      places := length.trans accounts.places
      sends := by
        have count := holders.length_eq
        rw [length_cons] at count
        rw [slotHolders, count, accounts.sends]
        rfl
      holders := holders.trans (accounts.holders.cons c)
    }
  · simp only [NIOAgent.dataDemand, tryAcquireSendSlot, free, if_false]
    exact accounts.sendData c d

theorem writeFinished
    (accounts : OutgoingAccounts slots agent)
    (c : Connection) :
    OutgoingAccounts slots (agent.writeFinished c) := by
  unfold NIOAgent.writeFinished releaseSendSlot
  cases free : freePlace c agent.trasmittingConnections with
  | none =>
      have notHolding : c ∉ agent.slottedSends := fun sending =>
        freePlace_eq_none free (accounts.holders.mem_iff.mpr sending)
      simp only
      rw [erase_of_not_mem notHolding]
      exact accounts
  | some freed =>
      rcases freePlace_eq_some free with ⟨length, holders⟩
      have remaining : freed.reduceOption.Perm (agent.slottedSends.erase c) :=
        cons_perm_iff_perm_erase.mp
          (holders.symm.trans accounts.holders) |>.2
      simp only
      apply congr _ sendSide_shutdownIfReady
      exact {
        places := length.trans accounts.places
        sends := by
          have count := holders.length_eq
          rw [length_cons] at count
          have before := accounts.sends
          rw [slotHolders, count] at before
          change agent.sendTransfers - 1 = freed.reduceOption.length
          rw [before]
          omega
        holders := remaining
      }

/-- A failed connection that holds no slot takes nothing with it. -/
theorem connectionFailed
    (accounts : OutgoingAccounts slots agent)
    {c : Connection}
    (notHolding : c ∉ agent.slotHolders) :
    OutgoingAccounts slots
      (agent.connectionFailed slots surroundings c).state := by
  have unchanged : agent.slottedSends.filter (· ≠ c) = agent.slottedSends := by
    rw [filter_eq_self]
    intro other sending
    have different : other ≠ c := by
      rintro rfl
      exact notHolding (accounts.holders.mem_iff.mpr sending)
    simpa using different
  rw [NIOAgent.connectionFailed, unchanged]
  apply accounts.congr
  exact sendSide_endTransfer (fun _ _ _ => rfl) c

theorem receivedData
    (accounts : OutgoingAccounts slots agent)
    (c : Connection)
    (t : Transfer) :
    OutgoingAccounts slots (agent.receivedData slots surroundings c t).state :=
  accounts.congr
    (sendSide_endTransfer (fun _ _ _ => bothSides_achieve _ _ _) c)

end OutgoingAccounts

/-! ## Accounts of the slots to receive -/

theorem nextRequest_eq_some
    (isNext : agent.nextRequest slots = some (next, dr)) :
    ∃ rest,
      agent.pendingRequests = dr :: rest ∧
        agent.receiveTransfers < slots.MAX_RECEIVE_TRANSFERS ∧
        next =
          { agent with
            receiveTransfers := agent.receiveTransfers + 1
            pendingRequests := rest } := by
  unfold nextRequest at isNext
  cases pending : agent.pendingRequests with
  | nil => simp [pending] at isNext
  | cons first rest =>
      by_cases free : agent.receiveTransfers < slots.MAX_RECEIVE_TRANSFERS
      · simp only [pending, tryAcquireReceiveSlot, free, if_true,
          some.injEq, Prod.mk.injEq] at isNext
        rcases isNext with ⟨rfl, rfl⟩
        exact ⟨rest, rfl, free, rfl⟩
      · simp [pending, tryAcquireReceiveSlot, free] at isNext

theorem nextRequest_eq_none
    (noNext : agent.nextRequest slots = none) :
    agent.pendingRequests = [] ∨
      slots.MAX_RECEIVE_TRANSFERS ≤ agent.receiveTransfers := by
  unfold nextRequest at noNext
  cases pending : agent.pendingRequests with
  | nil => exact Or.inl rfl
  | cons first rest =>
      by_cases free : agent.receiveTransfers < slots.MAX_RECEIVE_TRANSFERS
      · simp [pending, tryAcquireReceiveSlot, free] at noNext
      · exact Or.inr (Int.not_lt.mp free)

/-- The request at the head of the pending ones, when its transfer is started -/
def demanded
    (surroundings : Surroundings)
    (agent : NIOAgent)
    (dr : DataRequest)
    (uri : NIOURI)
    (rest : List DataRequest) : NIOAgent :=
  { agent with
    receiveTransfers := agent.receiveTransfers + 1
    pendingRequests := rest
  }.startTransfer surroundings dr uri

/--
What every round of the loop preserves holds when no request is left or no slot
is free.
-/
theorem requestWithin_returns
    {Holds : NIOAgent → Prop}
    (sourced : ∀ {agent}, Holds agent →
      ∀ dr ∈ agent.pendingRequests, dr.source.sources ≠ [])
    (round : ∀ {agent dr rest} uri, Holds agent →
      agent.pendingRequests = dr :: rest →
        agent.receiveTransfers < slots.MAX_RECEIVE_TRANSFERS →
          Holds (demanded surroundings agent dr uri rest))
    (rounds : Nat)
    (enough : agent.pendingRequests.length ≤ rounds)
    (holds : Holds agent) :
    ∃ after,
      agent.requestWithin slots surroundings rounds = .returned after () ∧
        Holds after ∧
        (after.pendingRequests = [] ∨
          slots.MAX_RECEIVE_TRANSFERS ≤ after.receiveTransfers) := by
  induction rounds generalizing agent with
  | zero =>
      have none := eq_nil_of_length_eq_zero (Nat.le_zero.mp enough)
      exact ⟨agent, rfl, holds, Or.inl none⟩
  | succ rounds hypothesis =>
      rw [requestWithin]
      cases isNext : agent.nextRequest slots with
      | none => exact ⟨agent, rfl, holds, nextRequest_eq_none isNext⟩
      | some found =>
          rcases found with ⟨next, dr⟩
          rcases nextRequest_eq_some isNext with ⟨rest, pending, free, same⟩
          have isPending : dr ∈ agent.pendingRequests := by
            rw [pending]
            exact mem_cons_self
          have hasSource := sourced holds dr isPending
          rcases exists_cons_of_ne_nil hasSource with ⟨uri, others, uris⟩
          have first : dr.source.getFirstURI = some uri := by
            rw [Data.getFirstURI, uris, head?_cons]
          simp only [first, same]
          apply hypothesis
          · have fewer : rest.length ≤ rounds := by
              rw [pending, length_cons] at enough
              exact Nat.le_of_succ_le_succ enough
            by_cases starts :
                surroundings.startsConnection agent.nextConnection
            · simpa [startTransfer, starts] using fewer
            · simpa [startTransfer, starts] using fewer
          · exact round uri holds pending free

/-- An entry that is looked up, apart from the others -/
theorem perm_of_lookup
    {Key : Type} {Value : Type}
    [DecidableEq Key]
    {entries : List (Key × Value)}
    {key : Key}
    {value : Value}
    (distinct : (entries.map (·.1)).Nodup)
    (found : entries.lookup key = some value) :
    entries.Perm
      ((key, value) :: entries.filter fun entry => entry.1 ≠ key) := by
  induction entries with
  | nil => simp at found
  | cons entry entries hypothesis =>
      rcases entry with ⟨other, otherValue⟩
      rw [map_cons, nodup_cons] at distinct
      by_cases same : key = other
      · subst other
        have isValue : otherValue = value := by simpa using found
        have absent : ∀ entry ∈ entries, decide (entry.1 ≠ key) = true := by
          intro entry isEntry
          have different : entry.1 ≠ key := fun same =>
            distinct.1 (mem_map.mpr ⟨entry, isEntry, same⟩)
          simpa using different
        rw [isValue, filter_cons_of_neg (by simp),
          filter_eq_self.mpr absent]
      · have foundLater : entries.lookup key = some value := by
          rwa [lookup_cons, beq_false_of_ne same] at found
        have keeps :
            (((other, otherValue) :: entries).filter fun entry =>
                entry.1 ≠ key) =
              (other, otherValue) :: entries.filter fun entry =>
                entry.1 ≠ key :=
          filter_cons_of_pos (by simpa using Ne.symm same)
        rw [keeps]
        calc
          ((other, otherValue) :: entries).Perm
              ((other, otherValue) :: (key, value) ::
                entries.filter fun entry => entry.1 ≠ key) :=
            (hypothesis distinct.2 foundLater).cons _
          List.Perm _ _ :=
            List.Perm.swap _ _ _

namespace IncomingAccounts

variable (accounts : IncomingAccounts slots agent)

include accounts

section

variable (starts : ∀ c, surroundings.startsConnection c)

include starts

/-- A connection that is opened is none of the open ones. -/
theorem demanded_ongoing
    (dr : DataRequest)
    (uri : NIOURI)
    (rest : List DataRequest) :
    (agent.demanded surroundings dr uri rest).ongoingTransfers =
      (agent.nextConnection, dr.source.name) :: agent.ongoingTransfers := by
  have others : ∀ entry ∈ agent.ongoingTransfers,
      decide (entry.1 ≠ agent.nextConnection) = true := by
    intro entry isOngoing
    have opened := accounts.opened entry isOngoing
    simpa using Nat.ne_of_lt opened
  simp only [demanded, startTransfer, starts, if_true]
  rw [filter_eq_self.mpr others]

theorem demanded
    {dr : DataRequest}
    (uri : NIOURI)
    {rest : List DataRequest}
    (pending : agent.pendingRequests = dr :: rest)
    (free : agent.receiveTransfers < slots.MAX_RECEIVE_TRANSFERS) :
    IncomingAccounts slots (agent.demanded surroundings dr uri rest) := by
  have ongoing := accounts.demanded_ongoing starts dr uri rest
  have receives :
      (agent.demanded surroundings dr uri rest).receiveTransfers =
        agent.receiveTransfers + 1 := by
    simp [NIOAgent.demanded, startTransfer, starts]
  have next :
      (agent.demanded surroundings dr uri rest).nextConnection =
        agent.nextConnection + 1 := by
    simp [NIOAgent.demanded, startTransfer, starts]
  have remaining :
      (agent.demanded surroundings dr uri rest).pendingRequests = rest := by
    simp [NIOAgent.demanded, startTransfer, starts]
  exact {
    receives := by
      rw [receives, ongoing, length_cons, accounts.receives]
      rfl
    bounded := by
      rw [receives]
      exact free
    opened := by
      rw [ongoing, next]
      intro entry isOngoing
      rcases mem_cons.mp isOngoing with rfl | earlier
      · exact Nat.lt_succ_self _
      · exact Nat.lt_succ_of_lt (accounts.opened entry earlier)
    distinct := by
      rw [ongoing, map_cons, nodup_cons]
      refine ⟨?_, accounts.distinct⟩
      intro reused
      rcases mem_map.mp reused with ⟨entry, isOngoing, same⟩
      exact Nat.ne_of_lt (accounts.opened entry isOngoing) same
    sourced := by
      rw [remaining]
      intro other isOther
      apply accounts.sourced
      rw [pending]
      exact mem_cons_of_mem _ isOther
  }

theorem requestTransfers :
    IncomingAccounts slots
      (agent.requestTransfers slots surroundings).state := by
  have sourced : ∀ {agent}, IncomingAccounts slots agent →
      ∀ dr ∈ agent.pendingRequests, dr.source.sources ≠ [] :=
    fun accounts => accounts.sourced
  rcases requestWithin_returns sourced
      (fun uri accounts => accounts.demanded starts uri)
      _ (Nat.le_refl _) accounts with ⟨after, returned, holds, _⟩
  rw [NIOAgent.requestTransfers, returned]
  exact holds

end

variable {c}

/-- The slot of the transfer that ended is given back. -/
theorem released
    {name : String}
    (found : agent.ongoingTransfers.lookup c = some name) :
    IncomingAccounts slots
      { agent with
        ongoingTransfers :=
          agent.ongoingTransfers.filter fun entry => entry.1 ≠ c
      }.releaseReceiveSlot := by
  have split := perm_of_lookup accounts.distinct found
  have count := split.length_eq
  rw [length_cons] at count
  exact {
    receives := by
      have before := accounts.receives
      rw [count] at before
      change agent.receiveTransfers - 1 =
        (agent.ongoingTransfers.filter fun entry => entry.1 ≠ c).length
      rw [before]
      omega
    bounded := by
      have bounded := accounts.bounded
      change agent.receiveTransfers - 1 ≤ _
      omega
    opened := fun entry isEntry =>
      accounts.opened entry (mem_of_mem_filter isEntry)
    distinct :=
      accounts.distinct.sublist (filter_sublist.map _)
    sourced := accounts.sourced
  }

omit accounts in
theorem endTransfer
    {answer : NIOAgent → String → List DataRequest → Outcome NIOAgent Unit}
    (answer_same : ∀ agent dataId requests,
      (answer agent dataId requests).state.bothSides = agent.bothSides)
    (accounts : IncomingAccounts slots agent)
    (starts : ∀ c, surroundings.startsConnection c)
    (c : Connection) :
    IncomingAccounts slots
      (agent.endTransfer slots surroundings c answer).state := by
  unfold NIOAgent.endTransfer
  cases found : agent.ongoingTransfers.lookup c with
  | none => exact accounts
  | some dataId =>
      have released := accounts.released found
      simp only
      split
      · exact released
      · apply andThen_preserves
        · exact (released.congr rfl).congr
            (congrArg Prod.snd (answer_same _ _ _))
        · intro served _ accounts
          apply andThen_preserves
          · exact accounts.requestTransfers starts
          · intro requested _ accounts
            exact accounts.congr receiveSide_shutdownIfReady

theorem receivedData
    (starts : ∀ c, surroundings.startsConnection c)
    (c : Connection)
    (t : Transfer) :
    IncomingAccounts slots (agent.receivedData slots surroundings c t).state :=
  endTransfer (fun _ _ _ => bothSides_achieve _ _ _) accounts starts c

theorem connectionFailed
    (starts : ∀ c, surroundings.startsConnection c)
    (c : Connection) :
    IncomingAccounts slots
      (agent.connectionFailed slots surroundings c).state := by
  unfold NIOAgent.connectionFailed receivedRequestedDataNotAvailableError
  apply endTransfer _ _ starts c
  · exact fun _ _ _ => rfl
  · exact accounts.congr rfl

theorem submit
    (type : DataType)
    {source : Data}
    (target : String)
    (sourced : agent.dataToRequests source.name = none → source.sources ≠ []) :
    IncomingAccounts slots (agent.submit type source target) := by
  unfold NIOAgent.submit addTransferRequest
  cases known : agent.dataToRequests source.name with
  | none =>
      simp only [known]
      exact {
        receives := accounts.receives
        bounded := accounts.bounded
        opened := accounts.opened
        distinct := accounts.distinct
        sourced := by
          intro dr isPending
          rcases mem_append.mp isPending with earlier | new
          · exact accounts.sourced dr earlier
          · rw [mem_singleton.mp new]
            exact sourced known
      }
  | some list =>
      simp only [known]
      exact accounts.congr rfl

end IncomingAccounts

end NIOAgent

/-! ## Runs -/

/-- The slots in use are those of the transfers that go on. -/
structure SlotsAccounted (slots : Slots) (agent : NIOAgent) : Prop where
  receives : agent.receiveTransfers = agent.ongoingTransfers.length
  receivesBounded : agent.receiveTransfers ≤ slots.MAX_RECEIVE_TRANSFERS
  sends : agent.sendTransfers = agent.slotHolders.length
  sendsBounded : agent.sendTransfers ≤ slots.MAX_SEND_TRANSFERS
  /-- A send that ended or failed holds no slot. -/
  holders : agent.slotHolders.Perm agent.slottedSends

/-- Requested data has a location, and the connections to it open. -/
def Connects (agent : NIOAgent) : AgentEvent → Prop
  | .submit _ source _ =>
      agent.dataToRequests source.name = none → source.sources ≠ []
  | .requestTransfers surroundings => ∀ c, surroundings.startsConnection c
  | .receivedData surroundings _ _ => ∀ c, surroundings.startsConnection c
  | .receivedShutdown _ => True
  | .dataDemand _ _ => True
  | .writeFinished _ => True
  | .connectionFailed surroundings _ => ∀ c, surroundings.startsConnection c

/-- No slot is taken for a missing file, and no connection with a slot fails. -/
def SendsUnfailingly (slots : Slots) (agent : NIOAgent) : AgentEvent → Prop
  | .dataDemand _ d =>
      d.isMissing → slots.MAX_SEND_TRANSFERS ≤ agent.sendTransfers
  | .connectionFailed _ c => c ∉ agent.slotHolders
  | _ => True

def ReturnsSlots
    (slots : Slots)
    (agent : NIOAgent)
    (event : AgentEvent) : Prop :=
  Connects agent event ∧ SendsUnfailingly slots agent event

open NIOAgent

variable
  {slots : Slots}
  {agent : NIOAgent}
  {event : AgentEvent}

theorem NIOAgent.IncomingAccounts.handle
    (accounts : IncomingAccounts slots agent)
    (connects : Connects agent event) :
    IncomingAccounts slots (agent.handle slots event) := by
  cases event with
  | submit type source target => exact accounts.submit type target connects
  | requestTransfers surroundings => exact accounts.requestTransfers connects
  | receivedData surroundings c t => exact accounts.receivedData connects c t
  | receivedShutdown requester =>
      exact accounts.congr receiveSide_shutdownIfReady
  | dataDemand c d => exact accounts.congr (receiveSide_dataDemand c d)
  | writeFinished c => exact accounts.congr (receiveSide_writeFinished c)
  | connectionFailed surroundings c =>
      exact accounts.connectionFailed connects c

theorem NIOAgent.OutgoingAccounts.handle
    (accounts : OutgoingAccounts slots agent)
    (unfailing : SendsUnfailingly slots agent event) :
    OutgoingAccounts slots (agent.handle slots event) := by
  cases event with
  | submit type source target =>
      exact accounts.congr (sendSide_submit type source target)
  | requestTransfers surroundings =>
      exact accounts.congr sendSide_requestTransfers
  | receivedData surroundings c t => exact accounts.receivedData c t
  | receivedShutdown requester => exact accounts.congr sendSide_shutdownIfReady
  | dataDemand c d => exact accounts.dataDemand c unfailing
  | writeFinished c => exact accounts.writeFinished c
  | connectionFailed surroundings c => exact accounts.connectionFailed unfailing

theorem incomingAccounts_new (slots : Slots) :
    IncomingAccounts slots (.new slots) where
  receives := rfl
  bounded := Int.natCast_nonneg _
  opened _ isOngoing := absurd isOngoing not_mem_nil
  distinct := nodup_nil
  sourced _ isPending := absurd isPending not_mem_nil

theorem outgoingAccounts_new (slots : Slots) :
    OutgoingAccounts slots (.new slots) := by
  have noHolder : (NIOAgent.new slots).slotHolders = [] :=
    reduceOption_replicate_none
  exact {
    places := length_replicate
    sends := by rw [noHolder]; rfl
    holders := by rw [noHolder]; rfl
  }

/-- In a run of such events every slot is given back. -/
theorem slotsAccounted_of_run
    {events : List AgentEvent}
    (run : Run (agentSystem slots) (ReturnsSlots slots) events agent) :
    SlotsAccounted slots agent := by
  have incoming : IncomingAccounts slots agent :=
    run.invariant (incomingAccounts_new slots)
      fun _ _ accounts _ permitted => accounts.handle permitted.1
  have outgoing : OutgoingAccounts slots agent :=
    run.invariant (outgoingAccounts_new slots)
      fun _ _ accounts _ permitted => accounts.handle permitted.2
  exact {
    receives := incoming.receives
    receivesBounded := incoming.bounded
    sends := outgoing.sends
    sendsBounded := outgoing.bounded
    holders := outgoing.holders
  }

/-- Surroundings where every call either succeeds or fails. -/
def Surroundings.uniform (succeeds : Bool) : Surroundings where
  startsConnection _ := succeeds
  copies _ := succeeds
  deserializes := succeeds
  entryOrder entries := entries
  entryOrder_perm _ := List.Perm.refl _

/-- A file on another node, asked for once -/
def submitFile (target : String) : AgentEvent :=
  .submit .FILE_T ⟨"d1v1", [⟨some "10.0.0.2", "/tmp/d1v1"⟩]⟩ target

theorem slotsAccounted_of_run_oneFile :
    SlotsAccounted ⟨1, 1⟩
      ((agentSystem ⟨1, 1⟩).after
        [submitFile "/tmp/a", .requestTransfers (.uniform true),
          .dataDemand 7 .object, .writeFinished 7,
          .receivedData (.uniform true) 0 ⟨true, "/tmp/a"⟩]) := by
  apply slotsAccounted_of_run
  apply run_of_executable
  simp [Executable, agentSystem, ReturnsSlots, Connects, SendsUnfailingly,
    submitFile, Surroundings.uniform, DataToSend.isMissing]

/-- The slot of a transfer that could not connect is never given back. -/
theorem not_slotsAccounted_refusedConnection :
    let events :=
      [submitFile "/tmp/a", .requestTransfers (.uniform false)]
    Run (agentSystem ⟨1, 1⟩) anyStep events
        ((agentSystem ⟨1, 1⟩).after events) ∧
      ¬SlotsAccounted ⟨1, 1⟩ ((agentSystem ⟨1, 1⟩).after events) := by
  constructor
  · apply run_of_executable
    simp [Executable, agentSystem, anyStep]
  · intro accounted
    exact absurd accounted.receives (by decide)

end DistributedRdf.Nio
