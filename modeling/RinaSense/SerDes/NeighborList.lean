import Mathlib.Data.List.Forall2
import RinaSense.SerDes.NeighborTrip

/-!
# Round trip of lists of neighbors

The neighbors of a list are decoded one after the other, each with requests for memory of
its own. The list stays as it is when each of its neighbors does and none of them is empty.
-/

namespace RinaSense.SerDes

open Common Library.Memory

/-- A neighbor which takes no bytes. -/
def NeighborMessage.Vacant (msg : NeighborMessage) : Prop :=
  msg.pcApName = none ∧ msg.pcApInstance = none ∧ msg.pcAeName = none ∧
    msg.pcAeInstance = none ∧ msg.pcSupportingDifs = []

instance (msg : NeighborMessage) : Decidable msg.Vacant :=
  inferInstanceAs (Decidable (_ ∧ _ ∧ _ ∧ _ ∧ _))

theorem stringRecords_eq_nil_iff {tag : ℕ} {s : Option CString} :
    stringRecords tag s = [] ↔ s = none := by
  cases s <;> simp [stringRecords]

theorem wires_neighborRecords_eq_nil_iff {msg : NeighborMessage} :
    wires (neighborRecords msg) = [] ↔ msg.Vacant := by
  rw [wires_eq_nil_iff]
  simp only [neighborRecords, List.append_eq_nil_iff, stringRecords_eq_nil_iff, difRecords,
    List.map_eq_nil_iff, NeighborMessage.Vacant]

variable (pf : Platform) (pools : SerDesPools)

/-! ### One neighbor of a list -/

/-- What the callback of a list does with the bytes of a neighbor. -/
def receiveItem (d : NeighborListDecode) (stream : Bytes) : PbExec NeighborListDecode :=
  if stream = [] then do
    let calls ← pxRsrcVarAlloc pf pools d.calls
    return { d with calls := calls }
  else do
    let (pxNbMsg, calls) ← receive pf pools stream d.calls
    let (xNbLst, calls) ← xArrayListAdd pf pools d.xNbLst pxNbMsg calls
    return ⟨xNbLst, calls⟩

theorem prvSerDesNeighborListDecodeCb_eq (d : NeighborListDecode) (stream : Bytes) :
    prvSerDesNeighborListDecodeCb pf pools stream d =
      (receiveItem pf pools d stream).map fun d => ([], d) := by
  unfold prvSerDesNeighborListDecodeCb receiveItem receive
  by_cases hempty : stream = []
  · simp only [if_pos hempty]
    cases pxRsrcVarAlloc pf pools d.calls <;> rfl
  · simp only [if_neg hempty]
    cases pxRsrcVarAlloc pf pools d.calls with
    | error t => rfl
    | ok calls =>
      simp only [PbExec.ok_bind]
      cases decodeNeighbor pf pools stream calls with
      | error t => rfl
      | ok nb =>
        simp only [PbExec.ok_bind]
        cases neighborObject pf pools nb with
        | error t => rfl
        | ok p =>
          obtain ⟨pxNbMsg, calls⟩ := p
          simp only [PbExec.ok_bind]
          cases xArrayListAdd pf pools d.xNbLst pxNbMsg calls <;> rfl

theorem receiveItem_vacant (d : NeighborListDecode) :
    receiveItem pf pools d [] =
      if Met pools d.calls (d.calls + 1) then .ok { d with calls := d.calls + 1 }
      else outOfMemory pf := by
  rw [receiveItem, if_pos rfl, pxRsrcVarAlloc_eq]
  split_ifs <;> rfl

/-- The requests which a neighbor of a list costs. -/
def itemRequests (used max : ℕ) (msg : NeighborMessage) : ℕ :=
  nameRequests msg + 1 + growRequests used max

theorem receiveItem_spec {msg : NeighborMessage} (hfits : msg.Fits)
    (hlen : ∀ s ∈ msg.pcSupportingDifs, s.length < 2 ^ 32) (h : ¬ msg.Vacant)
    (d : NeighborListDecode) :
    ∃ obj, DecodedAs pf (pools.residue (d.calls + nameRequests msg)) msg
        (kept msg.pcSupportingDifs) obj ∧
      receiveItem pf pools d (wires (neighborRecords msg)) =
        if Met pools d.calls (d.calls +
            itemRequests d.xNbLst.pvArray.length d.xNbLst.unMaxItemCount msg) then
          .ok ⟨⟨d.xNbLst.pvArray ++ [obj],
            roomAfter d.xNbLst.pvArray.length d.xNbLst.unMaxItemCount⟩,
            d.calls + itemRequests d.xNbLst.pvArray.length d.xNbLst.unMaxItemCount msg⟩
        else outOfMemory pf := by
  obtain ⟨obj, hdecoded, hreceive⟩ := receive_spec pf pools hfits hlen d.calls
  refine ⟨obj, hdecoded, ?_⟩
  have hne : wires (neighborRecords msg) ≠ [] := fun hnil =>
    h (wires_neighborRecords_eq_nil_iff.mp hnil)
  have hcalls : d.calls + itemRequests d.xNbLst.pvArray.length d.xNbLst.unMaxItemCount msg =
      d.calls + nameRequests msg + 1 +
        growRequests d.xNbLst.pvArray.length d.xNbLst.unMaxItemCount := by
    rw [itemRequests]
    omega
  rw [receiveItem, if_neg hne, hreceive]
  refine met_bind pf pools (by omega) (by omega) ?_
  simp only [xArrayListAdd_eq, ← hcalls]
  split_ifs <;> rfl

/-- A neighbor adds at most one object to the list. -/
theorem receiveItem_grows {d d' : NeighborListDecode} {stream : Bytes}
    (h : receiveItem pf pools d stream = .ok d') :
    ∃ objs, d'.xNbLst.pvArray = d.xNbLst.pvArray ++ objs ∧ objs.length ≤ 1 := by
  by_cases hempty : stream = []
  · subst hempty
    rw [receiveItem_vacant] at h
    split_ifs at h
    · cases h
      exact ⟨[], by simp, by simp⟩
    · cases h
  · rw [receiveItem, if_neg hempty] at h
    cases hreceive : receive pf pools stream d.calls with
    | error t =>
      rw [hreceive] at h
      cases h
    | ok p =>
      obtain ⟨obj, calls⟩ := p
      rw [hreceive, PbExec.ok_bind] at h
      simp only [xArrayListAdd_eq] at h
      split_ifs at h
      · cases h
        exact ⟨[obj], rfl, by simp⟩
      · cases h

/-! ### All neighbors of a list -/

def receiveAll (d : NeighborListDecode) (msgs : List NeighborMessage) :
    PbExec NeighborListDecode :=
  msgs.foldlM (fun d msg => receiveItem pf pools d (wires (neighborRecords msg))) d

theorem decodes_neighbors {msgs : List NeighborMessage}
    (hlen : ∀ msg ∈ msgs, (wires (neighborRecords msg)).length < 2 ^ 32)
    (d : NeighborListDecode) :
    Decodes (neighborsFields pf pools) (wires (neighborsRecords msgs)) d
      (receiveAll pf pools d msgs) :=
  decodes_repeated (by decide) (by decide) rfl hlen
    (fun msg _ d => prvSerDesNeighborListDecodeCb_eq pf pools d (wires (neighborRecords msg))) d

theorem receiveAll_cons (d : NeighborListDecode) (msg : NeighborMessage)
    (msgs : List NeighborMessage) :
    receiveAll pf pools d (msg :: msgs) = (do
      let d ← receiveItem pf pools d (wires (neighborRecords msg))
      receiveAll pf pools d msgs) := List.foldlM_cons

/-- There are never more objects than neighbors. -/
theorem receiveAll_grows {msgs : List NeighborMessage} {d d' : NeighborListDecode}
    (h : receiveAll pf pools d msgs = .ok d') :
    ∃ objs, d'.xNbLst.pvArray = d.xNbLst.pvArray ++ objs ∧ objs.length ≤ msgs.length := by
  induction msgs generalizing d with
  | nil =>
    cases h
    exact ⟨[], by simp, by simp⟩
  | cons msg msgs ih =>
    rw [receiveAll_cons] at h
    cases hitem : receiveItem pf pools d (wires (neighborRecords msg)) with
    | error t =>
      rw [hitem] at h
      cases h
    | ok d₁ =>
      rw [hitem, PbExec.ok_bind] at h
      obtain ⟨objs, hobjs, hone⟩ := receiveItem_grows pf pools hitem
      obtain ⟨objs', hobjs', hle⟩ := ih h
      refine ⟨objs ++ objs', ?_, ?_⟩
      · rw [hobjs', hobjs, List.append_assoc]
      · rw [List.length_append, List.length_cons]
        omega

/-- The neighbors of a list stay as they are, those that are decoded from request number
`calls` on behind the neighbor `prev`, with `used` neighbors in a list which has room for
`max`; the last request is for the list itself. -/
def ListHeld : NeighborMessage → ℕ → ℕ → ℕ → List NeighborMessage → Prop
  | _, calls, _, _, [] => pools.decPool calls = true
  | prev, calls, used, max, msg :: msgs =>
    ¬ msg.Vacant ∧ Held pf pools prev calls msg ∧
      Met pools (calls + nameRequests msg + 1) (calls + itemRequests used max msg) ∧
      ListHeld msg (calls + itemRequests used max msg) (used + 1) (roomAfter used max) msgs

instance ListHeld.decidable : ∀ prev calls used max msgs,
    Decidable (ListHeld pf pools prev calls used max msgs)
  | _, calls, _, _, [] => inferInstanceAs (Decidable (pools.decPool calls = true))
  | prev, calls, used, max, msg :: msgs =>
    have := ListHeld.decidable msg (calls + itemRequests used max msg) (used + 1)
      (roomAfter used max) msgs
    inferInstanceAs (Decidable (¬ msg.Vacant ∧ Held pf pools prev calls msg ∧
      Met pools (calls + nameRequests msg + 1) (calls + itemRequests used max msg) ∧
      ListHeld pf pools msg (calls + itemRequests used max msg) (used + 1)
        (roomAfter used max) msgs))

/-- Nothing is carried over in a list which stays as it is. -/
theorem ListHeld.carried_eq {prev : NeighborMessage} {calls used max : ℕ}
    {msgs : List NeighborMessage} (h : ListHeld pf pools prev calls used max msgs) :
    carried prev msgs = msgs := by
  induction msgs generalizing prev calls used max with
  | nil => rfl
  | cons msg msgs ih =>
    obtain ⟨-, hheld, -, hrest⟩ := h
    rw [carried, hheld.intact.carry, ih hrest]

/-- The list is received as it was. -/
def ReceivedAs (d : NeighborListDecode) (msgs carriedMsgs : List NeighborMessage) : Prop :=
  ∃ d' objs, receiveAll pf pools d carriedMsgs = .ok d' ∧ pools.decPool d'.calls = true ∧
    d'.xNbLst.pvArray = d.xNbLst.pvArray ++ objs ∧ List.Forall₂ SameNeighbor msgs objs

theorem vacant_carry {prev msg : NeighborMessage} (h : (prev.carry msg).Vacant) : msg.Vacant := by
  obtain ⟨hap, hapi, hae, haei, hdifs⟩ := h
  exact ⟨(Option.or_eq_none_iff.mp hap).1, (Option.or_eq_none_iff.mp hapi).1,
    (Option.or_eq_none_iff.mp hae).1, (Option.or_eq_none_iff.mp haei).1, hdifs⟩

/-- The first neighbor is received as one object, and the others behind it. -/
theorem receivedAs_cons {d d₁ : NeighborListDecode} {msg m : NeighborMessage}
    {msgs ms : List NeighborMessage} {obj : DecodedNeighbor}
    (hitem : receiveItem pf pools d (wires (neighborRecords m)) = .ok d₁)
    (hobj : d₁.xNbLst.pvArray = d.xNbLst.pvArray ++ [obj]) :
    ReceivedAs pf pools d (msg :: msgs) (m :: ms) ↔
      SameNeighbor msg obj ∧ ReceivedAs pf pools d₁ msgs ms := by
  constructor
  · rintro ⟨d', objs, hrun, hlast, harray, hsame⟩
    rw [receiveAll_cons, hitem, PbExec.ok_bind] at hrun
    obtain ⟨objs', hobjs', -⟩ := receiveAll_grows pf pools hrun
    rw [harray, hobj, List.append_assoc] at hobjs'
    have hobjs : objs = obj :: objs' := List.append_cancel_left hobjs'
    rw [hobjs] at hsame
    obtain ⟨hfirst, hrest⟩ := List.forall₂_cons.mp hsame
    refine ⟨hfirst, d', objs', hrun, hlast, ?_, hrest⟩
    rw [harray, hobj, hobjs, List.append_assoc, List.singleton_append]
  · rintro ⟨hfirst, d', objs, hrun, hlast, harray, hsame⟩
    refine ⟨d', obj :: objs, ?_, hlast, ?_, .cons hfirst hsame⟩
    · rw [receiveAll_cons, hitem, PbExec.ok_bind]
      exact hrun
    · rw [harray, hobj, List.append_assoc, List.singleton_append]

/-- A neighbor without bytes is missing from the list. -/
theorem not_receivedAs_vacant {d : NeighborListDecode} {msg m : NeighborMessage}
    {msgs ms : List NeighborMessage} (hlen : ms.length = msgs.length) (h : m.Vacant) :
    ¬ ReceivedAs pf pools d (msg :: msgs) (m :: ms) := by
  rintro ⟨d', objs, hrun, -, harray, hsame⟩
  rw [receiveAll_cons, wires_neighborRecords_eq_nil_iff.mpr h, receiveItem_vacant] at hrun
  split_ifs at hrun
  · obtain ⟨objs', hobjs', hle⟩ := receiveAll_grows pf pools hrun
    rw [harray] at hobjs'
    have hobjs : objs = objs' := List.append_cancel_left hobjs'
    have hcount := hsame.length_eq
    rw [List.length_cons, hobjs] at hcount
    omega
  · cases hrun

theorem carried_length (prev : NeighborMessage) (msgs : List NeighborMessage) :
    (carried prev msgs).length = msgs.length := by
  induction msgs generalizing prev with
  | nil => rfl
  | cons msg msgs ih => rw [carried, List.length_cons, List.length_cons, ih]

/-- The invariant of the loop over the list: the rest of it is received as it was exactly when
it stays as it is. -/
theorem receivedAs_iff {prev : NeighborMessage} {msgs : List NeighborMessage}
    (hprev : prev.Fits) (hmsgs : ∀ msg ∈ msgs, msg.Fits)
    (hlen : ∀ m ∈ carried prev msgs, ∀ s ∈ m.pcSupportingDifs, s.length < 2 ^ 32)
    (d : NeighborListDecode) :
    ReceivedAs pf pools d msgs (carried prev msgs) ↔
      ListHeld pf pools prev d.calls d.xNbLst.pvArray.length d.xNbLst.unMaxItemCount msgs := by
  induction msgs generalizing prev d with
  | nil =>
    constructor
    · rintro ⟨d', objs, hrun, hlast, -, -⟩
      cases hrun
      exact hlast
    · exact fun h => ⟨d, [], rfl, h, by simp, .nil⟩
  | cons msg msgs ih =>
    have hfits : (prev.carry msg).Fits := hprev.carry (hmsgs msg (List.mem_cons_self ..))
    rw [carried] at hlen ⊢
    by_cases hvacant : (prev.carry msg).Vacant
    · refine iff_of_false (not_receivedAs_vacant pf pools (carried_length _ _) hvacant) ?_
      exact fun h => h.1 (vacant_carry hvacant)
    · obtain ⟨obj, hdecoded, hitem⟩ := receiveItem_spec pf pools hfits
        (hlen _ (List.mem_cons_self ..)) hvacant d
      -- what is carried over does not change the names, and so not the requests
      have hcost : ∀ used max, itemRequests used max (prev.carry msg) =
          itemRequests used max msg := fun _ _ => rfl
      have hsame : SameNeighbor msg obj ↔
          Intact pf (pools.residue (d.calls + nameRequests msg)) prev msg :=
        DecodedAs.same_iff pf hdecoded
      have hsplit := met_split pools (a := d.calls)
        (b := d.calls + nameRequests msg + 1)
        (c := d.calls + itemRequests d.xNbLst.pvArray.length d.xNbLst.unMaxItemCount msg)
        (by omega) (by rw [itemRequests]; omega)
      rw [hcost] at hitem
      by_cases hmet : Met pools d.calls (d.calls +
          itemRequests d.xNbLst.pvArray.length d.xNbLst.unMaxItemCount msg)
      · rw [if_pos hmet] at hitem
        obtain ⟨hobject, hgrow⟩ := hsplit.mp hmet
        have hrest := ih hfits (fun m hm => hmsgs m (List.mem_cons_of_mem _ hm))
          (fun m hm => hlen m (List.mem_cons_of_mem _ hm))
          ⟨⟨d.xNbLst.pvArray ++ [obj],
            roomAfter d.xNbLst.pvArray.length d.xNbLst.unMaxItemCount⟩,
            d.calls + itemRequests d.xNbLst.pvArray.length d.xNbLst.unMaxItemCount msg⟩
        rw [receivedAs_cons pf pools hitem rfl, hrest, List.length_append,
          List.length_singleton, hsame]
        constructor
        · rintro ⟨hintact, hlist⟩
          rw [hintact.carry] at hvacant hlist
          exact ⟨hvacant, ⟨hobject, hintact⟩, hgrow, hlist⟩
        · rintro ⟨-, hheld, -, hlist⟩
          refine ⟨hheld.intact, ?_⟩
          rw [hheld.intact.carry]
          exact hlist
      · rw [if_neg hmet] at hitem
        refine iff_of_false ?_ fun h => hmet (hsplit.mpr ⟨h.2.1.memory, h.2.2.1⟩)
        rintro ⟨d', objs, hrun, -⟩
        rw [receiveAll_cons, hitem] at hrun
        cases hrun

/-! ### The round trip -/

/-- The bytes produced for a list of neighbors are decoded to the same list. -/
def NeighborsRoundTrip (msgs : List NeighborMessage) : Prop :=
  ∃ buf objs, pxSerDesNeighborListEncode pf pools msgs = .ok (some buf) ∧
    pxSerDesNeighborListDecode pf pools buf = .ok (some objs) ∧
    List.Forall₂ SameNeighbor msgs objs

/-- The first request is for the array list of the neighbors. -/
structure NeighborsSurvive (msgs : List NeighborMessage) : Prop where
  encPool : pools.encPool = true
  size : neighborsSize msgs ≤ ENROLLMENT_MSG_SIZE
  decPool : pools.decPool 0 = true
  held : ListHeld pf pools .blank 1 0 10 msgs

theorem pxSerDesNeighborListEncode_eq_some {msgs : List NeighborMessage}
    (hfits : ∀ msg ∈ msgs, msg.Fits) {buf : Bytes} :
    pxSerDesNeighborListEncode pf pools msgs = .ok (some buf) ↔
      pools.encPool = true ∧ neighborsSize (carried .blank msgs) ≤ ENROLLMENT_MSG_SIZE ∧
        buf = wires (neighborsRecords (carried .blank msgs)) := by
  have hzero : PbNeighbor.init_zero = pbNeighbor .blank := rfl
  have hwrites := (writes_neighbors NeighborMessage.blank_fits hfits).buffer
  rw [neighborsRecords_size] at hwrites
  unfold pxSerDesNeighborListEncode
  simp only [hzero, hwrites]
  cases henc : pools.encPool with
  | false => simp [status_outOfMemory]
  | true =>
    by_cases hsize : neighborsSize (carried .blank msgs) ≤ ENROLLMENT_MSG_SIZE
    · simp [hsize, eq_comm]
    · simp [hsize]

theorem item_length_le {msg : NeighborMessage} {msgs : List NeighborMessage} (h : msg ∈ msgs) :
    (wires (neighborRecords msg)).length ≤ neighborsSize msgs := by
  have hmem : (⟨1, wires (neighborRecords msg)⟩ : Record) ∈ neighborsRecords msgs :=
    List.mem_map.mpr ⟨msg, h, rfl⟩
  rw [← neighborsRecords_size]
  exact Nat.le_trans (Record.payload_length_le ⟨1, wires (neighborRecords msg)⟩)
    (wire_length_le hmem)

theorem pxSerDesNeighborListDecode_wires {msgs : List NeighborMessage}
    (hsize : neighborsSize msgs ≤ ENROLLMENT_MSG_SIZE) {objs : List DecodedNeighbor} :
    pxSerDesNeighborListDecode pf pools (wires (neighborsRecords msgs)) = .ok (some objs) ↔
      pools.decPool 0 = true ∧ ∃ d, receiveAll pf pools ⟨.init DecodedNeighbor, 1⟩ msgs = .ok d ∧
        pools.decPool d.calls = true ∧ d.xNbLst.pvArray = objs := by
  have hlen : ∀ msg ∈ msgs, (wires (neighborRecords msg)).length < 2 ^ 32 := by
    intro msg hmsg
    have hbound : ENROLLMENT_MSG_SIZE < 2 ^ 32 := by decide
    have hle := item_length_le hmsg
    omega
  have hdecode := (decodes_neighbors pf pools hlen ⟨.init DecodedNeighbor, 1⟩).pb_decode
  unfold pxSerDesNeighborListDecode
  rw [status_eq_some]
  cases hfirst : pools.decPool 0 with
  | false => simp [pxRsrcVarAlloc, hfirst, outOfMemory]
  | true =>
    simp only [pxRsrcVarAlloc, hfirst, if_true, PbExec.ok_bind, hdecode, true_and]
    cases hrun : receiveAll pf pools ⟨.init DecodedNeighbor, 1⟩ msgs with
    | error t => simp
    | ok d =>
      cases hlast : pools.decPool d.calls with
      | false => simp [hlast]
      | true => simp [hlast, pure, Except.pure]

/-- A list makes the round trip exactly when it survives it. -/
theorem neighbors_roundTrip_iff {msgs : List NeighborMessage}
    (hfits : ∀ msg ∈ msgs, msg.Fits) :
    NeighborsRoundTrip pf pools msgs ↔ NeighborsSurvive pf pools msgs := by
  have hbound : ENROLLMENT_MSG_SIZE < 2 ^ 32 := by decide
  have hiff (hsize : neighborsSize (carried .blank msgs) ≤ ENROLLMENT_MSG_SIZE) :=
    receivedAs_iff pf pools NeighborMessage.blank_fits hfits
      (fun m hm s hs => by
        have hdif := dif_length_le hs
        have hitem := item_length_le hm
        omega) ⟨.init DecodedNeighbor, 1⟩
  constructor
  · rintro ⟨buf, objs, hencode, hdecode, hsame⟩
    obtain ⟨henc, hsize, rfl⟩ := (pxSerDesNeighborListEncode_eq_some pf pools hfits).mp hencode
    obtain ⟨hfirst, d, hrun, hlast, harray⟩ :=
      (pxSerDesNeighborListDecode_wires pf pools hsize).mp hdecode
    have hheld := (hiff hsize).mp ⟨d, objs, hrun, hlast, harray, hsame⟩
    rw [hheld.carried_eq] at hsize
    exact ⟨henc, hsize, hfirst, hheld⟩
  · rintro ⟨henc, hsize, hfirst, hheld⟩
    rw [← hheld.carried_eq] at hsize
    obtain ⟨d, objs, hrun, hlast, harray, hsame⟩ := (hiff hsize).mpr hheld
    exact ⟨_, objs, (pxSerDesNeighborListEncode_eq_some pf pools hfits).mpr ⟨henc, hsize, rfl⟩,
      (pxSerDesNeighborListDecode_wires pf pools hsize).mpr ⟨hfirst, d, hrun, hlast, harray⟩,
      hsame⟩

/-- Neighbors and lists of neighbors whose strings fit make the round trip exactly when they
survive it. -/
theorem neighbors_survive_iff :
    (∀ msg : NeighborMessage, msg.Fits →
      (NeighborRoundTrips pf pools msg ↔ NeighborSurvives pf pools msg)) ∧
    ∀ msgs : List NeighborMessage, (∀ msg ∈ msgs, msg.Fits) →
      (NeighborsRoundTrip pf pools msgs ↔ NeighborsSurvive pf pools msgs) :=
  ⟨fun _ => neighbor_roundTrips_iff pf pools, fun _ => neighbors_roundTrip_iff pf pools⟩

/-! ### The neighbor of the test -/

def asciiApName : CString := ⟨[0x61, 0x70, 0x6e, 0x61, 0x6d, 0x65], by decide⟩

def asciiApInstance : CString :=
  ⟨[0x61, 0x70, 0x69, 0x6e, 0x73, 0x74, 0x61, 0x6e, 0x63, 0x65], by decide⟩

def asciiAeName : CString := ⟨[0x61, 0x65, 0x6e, 0x61, 0x6d, 0x65], by decide⟩

def asciiAeInstance : CString :=
  ⟨[0x61, 0x65, 0x69, 0x6e, 0x73, 0x74, 0x61, 0x6e, 0x63, 0x65], by decide⟩

def asciiMobileDif : CString :=
  ⟨[0x6d, 0x6f, 0x62, 0x69, 0x6c, 0x65, 0x2e, 0x44, 0x49, 0x46], by decide⟩

def testNeighbor (address : UInt64) : NeighborMessage :=
  ⟨some asciiApName, some asciiApInstance, some asciiAeName, some asciiAeInstance, address,
    [asciiMobileDif, asciiMobileDif]⟩

/-- A build with the assertions, outside Valgrind. -/
def plainPlatform : Platform := ⟨false, false⟩

def amplePools : SerDesPools := ⟨true, fun _ => true, fun _ => ⟨none, 0, fun _ => 0⟩⟩

instance (msg : NeighborMessage) : Decidable (NeighborSurvives pf pools msg) :=
  decidable_of_iff (pools.encPool = true ∧ neighborSize msg ≤ ENROLLMENT_MSG_SIZE ∧
      Held pf pools .blank 0 msg)
    ⟨fun ⟨he, hs, hh⟩ => ⟨he, hs, hh⟩, fun ⟨he, hs, hh⟩ => ⟨he, hs, hh⟩⟩

instance (msgs : List NeighborMessage) : Decidable (NeighborsSurvive pf pools msgs) :=
  decidable_of_iff (pools.encPool = true ∧ neighborsSize msgs ≤ ENROLLMENT_MSG_SIZE ∧
      pools.decPool 0 = true ∧ ListHeld pf pools .blank 1 0 10 msgs)
    ⟨fun ⟨he, hs, hd, hh⟩ => ⟨he, hs, hd, hh⟩, fun ⟨he, hs, hd, hh⟩ => ⟨he, hs, hd, hh⟩⟩

/-- Without an address the neighbor of the test is decoded as it was, alone and in a list. -/
theorem testNeighbor_survives :
    NeighborRoundTrips plainPlatform amplePools (testNeighbor 0) ∧
      NeighborsRoundTrip plainPlatform amplePools
        [testNeighbor 0, testNeighbor 0, testNeighbor 0] :=
  ⟨((neighbors_survive_iff plainPlatform amplePools).1 (testNeighbor 0) (by decide)).mpr
      (by decide),
    ((neighbors_survive_iff plainPlatform amplePools).2
      [testNeighbor 0, testNeighbor 0, testNeighbor 0] (by decide)).mpr (by decide)⟩

/-- The address 10 is lost, and so is an empty name; in a list a neighbor without strings
gets those of the one in front of it. -/
theorem testNeighbor_lost :
    ((testNeighbor 10).Fits ∧
      ¬ NeighborRoundTrips plainPlatform amplePools (testNeighbor 10)) ∧
    (⟨none, none, none, none, 0, [CString.empty]⟩ : NeighborMessage).Fits ∧
    ¬ NeighborRoundTrips plainPlatform amplePools
      ⟨none, none, none, none, 0, [CString.empty]⟩ ∧
    ¬ NeighborsRoundTrip plainPlatform amplePools
      [testNeighbor 0, ⟨none, none, none, none, 0, [asciiMobileDif]⟩] := by
  refine ⟨⟨by decide, ?_⟩, by decide, ?_, ?_⟩
  · rw [neighbor_roundTrips_iff plainPlatform amplePools (by decide)]
    decide
  · rw [neighbor_roundTrips_iff plainPlatform amplePools (by decide)]
    decide
  · rw [neighbors_roundTrip_iff plainPlatform amplePools (by decide)]
    decide

end RinaSense.SerDes
