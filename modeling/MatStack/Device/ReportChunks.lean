import MatStack.Device.EventDelivery
import MatStack.Lib.Batches

/-!
# Reports in chunks

A report that is too long for one message is cut: the attribute entries first, then, in the first
report of a subscription, the events. Both are cut greedily, by the length of the encoding that says
that another chunk follows, which is the longer one. Every chunk is kept here with what it encodes.
-/

namespace MatStack

open Writer

/-! ## The size of the attribute half -/

theorem appends_putAttributePath (tag : Tag) (endpoint : UInt16) (cluster : UInt32)
    (attr : Option UInt32) :
    Appends fun w => some (putAttributePath w tag endpoint cluster attr) := by
  have hids := ((appends_start 0x17 tag).comp (appends_putUint (.context 2) endpoint.toUInt64)).comp
    (appends_putUint (.context 3) cluster.toUInt64)
  cases attr with
  | none => exact hids.comp appends_endContainer
  | some attr =>
    exact hids.comp ((appends_putUint (.context 4) attr.toUInt64).comp appends_endContainer)

theorem appends_encodeAttributeReportIb (entry : ReportEntryOut) :
    Appends fun w => encodeAttributeReportIb w entry := by
  have hopen : ∀ tag : Tag, Appends fun w => some ((w.startStruct .anonymous).startStruct tag) :=
    fun tag => (appends_start 0x15 .anonymous).comp (appends_start 0x15 tag)
  have hclose : Appends fun w => some w.endContainer.endContainer :=
    appends_endContainer.comp appends_endContainer
  cases entry with
  | data d =>
    have hpath := ((hopen (.context 1)).comp (appends_putUint (.context 0) d.dataVersion.toUInt64)).comp
      (appends_putAttributePath (.context 1) d.endpoint d.cluster (some d.attr))
    have hraw := hpath.comp ((appends_putRawElement (.context 2) d.valueTlv).bind hclose)
    refine cast (congrArg Appends (funext fun w => ?_)) hraw
    unfold encodeAttributeReportIb
    dsimp only
    cases Writer.putRawElement _ (.context 2) d.valueTlv <;> rfl
  | status endpoint cluster attr status =>
    have hpath := (hopen (.context 0)).comp
      (appends_putAttributePath (.context 0) endpoint cluster (some attr))
    have hstatus := (hpath.comp (appends_start 0x15 (.context 1))).comp
      (appends_putUint (.context 0) status.toUInt64)
    exact (hstatus.comp appends_endContainer).comp hclose

/-- What an attribute entry adds to a report; `none` where its value is no TLV element. -/
def ReportEntryOut.bytes (entry : ReportEntryOut) : Option Bytes :=
  (encodeAttributeReportIb .new entry).map (·.buf)

theorem isSome_encodeAttributeReportIb (w : Writer) (entry : ReportEntryOut) :
    (encodeAttributeReportIb w entry).isSome = entry.bytes.isSome := by
  obtain ⟨b, hb⟩ := appends_encodeAttributeReportIb entry
  rw [ReportEntryOut.bytes, hb .new, Option.isSome_map, ← Option.isSome_map (f := (w.buf ++ ·)),
    ← hb w, Option.isSome_map]

section
variable {attrs : List ReportEntryOut} {events : List EventEntryOut} {suppress more : Bool}
  {subId : Option UInt32} {b b' : Bytes}

theorem isSome_foldlM_encodeAttributeReportIb (w : Writer) :
    (attrs.foldlM encodeAttributeReportIb w).isSome ↔ ∀ e ∈ attrs, e.bytes.isSome := by
  induction attrs generalizing w with
  | nil => exact iff_of_true rfl (List.forall_mem_nil _)
  | cons e attrs ih =>
    have he := isSome_encodeAttributeReportIb w e
    rw [List.foldlM_cons, List.forall_mem_cons, ← he]
    cases encodeAttributeReportIb w e with
    | none => exact iff_of_false Bool.false_ne_true fun h => Bool.false_ne_true h.1
    | some w' =>
      rw [Option.bind_eq_bind, Option.bind_some, ih]
      exact ⟨fun h => ⟨rfl, h⟩, fun h => h.2⟩

/-- A report of attributes can be encoded exactly when each of its entries can. -/
theorem isSome_encodeReportDataFull_iff :
    (encodeReportDataFull attrs [] suppress subId more).isSome ↔ ∀ e ∈ attrs, e.bytes.isSome := by
  rw [encodeReportDataFull_eq]
  unfold reportHead
  dsimp only
  rw [← isSome_foldlM_encodeAttributeReportIb]
  cases List.foldlM encodeAttributeReportIb _ attrs <;> rfl

theorem length_reportTail (w : Writer) :
    (reportTail suppress more w).finish.length = w.buf.length + (if more then 2 else 0) + 6 := by
  cases more <;>
    simp [reportTail, putBool, putUint, controlAndTag, push, endContainer, finish, imRevision,
      LittleEndian.encode]

/-- A report is longest when it says that another chunk follows. -/
theorem length_encodeReportDataFull_le
    (hb : encodeReportDataFull attrs events false subId true = some b)
    (hb' : encodeReportDataFull attrs events suppress subId more = some b') :
    b'.length ≤ b.length := by
  rw [encodeReportDataFull_eq, Option.bind_eq_some_iff] at hb hb'
  obtain ⟨w, hw, hb⟩ := hb
  obtain ⟨w', hw', hb'⟩ := hb'
  obtain rfl : w = w' := Option.some.inj (hw.symm.trans hw')
  obtain ⟨v, hv, rfl⟩ := Option.map_eq_some_iff.1 hb
  obtain ⟨v', hv', rfl⟩ := Option.map_eq_some_iff.1 hb'
  obtain rfl : v = v' := Option.some.inj (hv.symm.trans hv')
  rw [length_reportTail, length_reportTail]
  cases more <;> simp

end

/-! ## Chunks -/

/-- One message of a report with what it encodes. -/
structure ReportChunk where
  attrs : List ReportEntryOut
  events : List EventEntryOut
  suppressResponse : Bool
  subscriptionId : Option UInt32
  moreChunks : Bool
  payload : Bytes
  encoded : encodeReportDataFull attrs events suppressResponse subscriptionId moreChunks =
    some payload

/-- Encodes a message; `none` where encoding panics. -/
def encodeChunk (attrs : List ReportEntryOut) (events : List EventEntryOut)
    (suppressResponse : Bool) (subscriptionId : Option UInt32) (moreChunks : Bool) :
    Option ReportChunk :=
  match h : encodeReportDataFull attrs events suppressResponse subscriptionId moreChunks with
  | some payload => some ⟨attrs, events, suppressResponse, subscriptionId, moreChunks, payload, h⟩
  | none => none

theorem encodeChunk_some {attrs : List ReportEntryOut} {events : List EventEntryOut}
    {suppress more : Bool} {subId : Option UInt32} {c : ReportChunk}
    (h : encodeChunk attrs events suppress subId more = some c) :
    c.attrs = attrs ∧ c.events = events ∧ c.subscriptionId = subId ∧ c.moreChunks = more ∧
      c.suppressResponse = suppress := by
  unfold encodeChunk at h
  split at h
  · cases h
    exact ⟨rfl, rfl, rfl, rfl, rfl⟩
  · cases h

theorem encodeChunk_payload (attrs : List ReportEntryOut) (events : List EventEntryOut)
    (suppress more : Bool) (subId : Option UInt32) :
    (encodeChunk attrs events suppress subId more).map (·.payload) =
      encodeReportDataFull attrs events suppress subId more := by
  unfold encodeChunk
  split <;> next h => exact h.symm

/-- The attribute entries do not fit into one message, which another one follows. -/
def attrsOverflow (budget : Nat) (subscriptionId : Option UInt32) (candidate : List ReportEntryOut) :
    Option Bool :=
  (encodeReportDataFull candidate [] false subscriptionId true).map fun b =>
    decide (budget < b.length)

/-- The event entries do not fit into one message, which another one follows. -/
def eventsOverflow (budget : Nat) (subscriptionId : UInt32) (candidate : List EventEntryOut) :
    Option Bool :=
  (encodeReportDataFull [] candidate false (some subscriptionId) true).map fun b =>
    decide (budget < b.length)

/-- The report on a list of paths, in messages. -/
def NodeView.readChunks (n : NodeView) (paths : List AttrPathIn) (readCtx : ReadCtx) (budget : Nat)
    (subscriptionId : Option UInt32) (trailerFollows : Bool) : Option (List ReportChunk) := do
  let entries := n.readEntries paths readCtx
  let batches ← Batches.cut (attrsOverflow budget subscriptionId) entries
  (Batches.withLast batches).mapM fun (batch, isLast) =>
    let suppress := isLast && subscriptionId.isNone && !trailerFollows
    let more := !isLast || trailerFollows
    encodeChunk batch [] suppress subscriptionId more

/-- The messages that carry the events of the first report. -/
def eventChunks (entries : List EventEntryOut) (budget : Nat) (subscriptionId : UInt32) :
    Option (List ReportChunk) := do
  let batches ← batchesFrom budget subscriptionId [] entries
  (Batches.withLast batches).mapM fun (b, isLast) =>
    encodeChunk [] b false (some subscriptionId) (!isLast)

/-- The first report of a subscription. -/
def NodeView.primingChunks (n : NodeView) (paths : List AttrPathIn) (readCtx : ReadCtx)
    (events : List EventEntryOut) (budget : Nat) (subscriptionId : UInt32) :
    Option (List ReportChunk) := do
  let chunks ← n.readChunks paths readCtx budget (some subscriptionId) (!events.isEmpty)
  return chunks ++ (← eventChunks events budget subscriptionId)

/-! ## The two splitters are one -/

section
variable {budget : Nat} {subId : UInt32} {current entries : List EventEntryOut}
  {batches : List (List EventEntryOut)}

/-- Events are cut as any list is, and none of them makes no batch. -/
theorem batchesFrom_eq_cutFrom (h : current ++ entries ≠ []) :
    batchesFrom budget subId current entries =
      Batches.cutFrom (eventsOverflow budget subId) current entries := by
  induction entries generalizing current with
  | nil =>
    rw [List.append_nil] at h
    rw [batchesFrom, Batches.cutFrom, if_neg (by simpa using h)]
  | cons e entries ih =>
    rw [batchesFrom, Batches.cutFrom, eventsOverflow]
    cases encodeReportDataFull [] (current ++ [e]) false (some subId) true with
    | none => rfl
    | some b =>
      simp only [Option.bind_eq_bind, Option.bind_some, Option.map_some]
      have hone : [e] ++ entries ≠ [] := List.cons_ne_nil _ _
      have hmore : (current ++ [e]) ++ entries ≠ [] := by simp
      rw [ih hone, ih hmore]

theorem batchesFrom_nil : batchesFrom budget subId [] [] = some [] := rfl

/-- These are the messages that `chunkEvents` makes. -/
theorem chunkEvents_eq_eventChunks :
    chunkEvents entries budget subId =
      (eventChunks entries budget subId).map fun cs => (cs.map (·.events), cs.map (·.payload)) := by
  unfold chunkEvents eventChunks
  cases hb : batchesFrom budget subId [] entries with
  | none => rfl
  | some batches =>
    simp only [Option.bind_eq_bind, Option.bind_some]
    have hpayload : encodeBatches subId batches = ((Batches.withLast batches).mapM fun (b, isLast) =>
        encodeChunk [] b false (some subId) (!isLast)).map (List.map ReportChunk.payload) := by
      rw [Batches.map_mapM, Batches.withLast, List.mapM_map, encodeBatches]
      simp only [Function.comp_def, encodeChunk_payload, decide_not]
    rw [hpayload]
    cases hc : (Batches.withLast batches).mapM fun (b, isLast) =>
        encodeChunk [] b false (some subId) (!isLast) with
    | none => rfl
    | some cs =>
      have hevents : cs.map (·.events) = (Batches.withLast batches).map Prod.fst :=
        Batches.map_eq_of_mapM hc fun _ _ h => (encodeChunk_some h).2.1
      rw [Batches.withLast_fst] at hevents
      rw [Option.map_some, Option.bind_some, Option.map_some, hevents]
      rfl

end

/-! ## The contract -/

/-- The entries of the report go out in their order, and a message of several entries is not too
long. -/
structure CarriesAttrs (chunks : List ReportChunk) (entries : List ReportEntryOut) (budget : Nat) :
    Prop where
  attrs : chunks.flatMap (·.attrs) = entries
  events : ∀ c ∈ chunks, c.events = []
  fits : ∀ c ∈ chunks, 1 < c.attrs.length → c.payload.length ≤ budget

structure CarriesEvents (chunks : List ReportChunk) (entries : List EventEntryOut) (budget : Nat) :
    Prop where
  events : chunks.flatMap (·.events) = entries
  attrs : ∀ c ∈ chunks, c.attrs = []
  fits : ∀ c ∈ chunks, 1 < c.events.length → c.payload.length ≤ budget

/-- All messages but the last say that another follows; the last says `trailer`. -/
def Flagged (chunks : List ReportChunk) (trailer : Bool) : Prop :=
  chunks.map (·.moreChunks) = List.replicate (chunks.length - 1) true ++ [trailer]

theorem Flagged.ne_nil {chunks : List ReportChunk} {trailer : Bool} (h : Flagged chunks trailer) :
    chunks ≠ [] := by
  rintro rfl
  cases h

/-- Messages that are followed by others are one sequence with them. -/
theorem Flagged.append {chunks chunks' : List ReportChunk} {trailer : Bool}
    (h : Flagged chunks true) (h' : Flagged chunks' trailer) : Flagged (chunks ++ chunks') trailer := by
  have hlen := List.length_pos_iff.2 h.ne_nil
  have hlen' := List.length_pos_iff.2 h'.ne_nil
  have hall : chunks.map (·.moreChunks) = List.replicate chunks.length true := by
    rw [h, ← List.replicate_succ', Nat.sub_add_cancel hlen]
  unfold Flagged
  rw [List.map_append, hall, h', ← List.append_assoc, List.replicate_append_replicate,
    List.length_append, Nat.add_sub_assoc hlen']

section
variable {n : NodeView} {paths : List AttrPathIn} {ctx : ReadCtx} {budget : Nat}
  {subId : Option UInt32} {trailer : Bool} {chunks : List ReportChunk} {events : List EventEntryOut}

theorem flagged_of_mapM {α : Type} {batches : List α} {f : α × Bool → Option ReportChunk}
    (hne : batches ≠ []) (hout : (Batches.withLast batches).mapM f = some chunks)
    (hf : ∀ x c, f x = some c → c.moreChunks = (!x.2 || trailer)) : Flagged chunks trailer := by
  have hmore := Batches.map_eq_of_mapM hout hf
  have hlast := congrArg (List.map fun b => !b || trailer) (Batches.withLast_snd hne)
  rw [List.map_map] at hlast
  have hlen : chunks.length = batches.length := by
    have := congrArg List.length hmore
    rwa [List.length_map, List.length_map, ← List.length_map (f := Prod.fst),
      Batches.withLast_fst] at this
  unfold Flagged
  rw [hmore, hlen]
  refine hlast.trans ?_
  simp

theorem readChunks_carries (h : n.readChunks paths ctx budget subId trailer = some chunks) :
    CarriesAttrs chunks (n.readEntries paths ctx) budget ∧ Flagged chunks trailer := by
  unfold NodeView.readChunks at h
  obtain ⟨batches, hbatches, hout⟩ := Option.bind_eq_some_iff.1 h
  refine ⟨⟨?_, ?_, ?_⟩, ?_⟩
  · have hattrs : chunks.map (·.attrs) = (Batches.withLast batches).map Prod.fst :=
      Batches.map_eq_of_mapM hout fun _ _ hc => (encodeChunk_some hc).1
    rw [Batches.withLast_fst] at hattrs
    rw [List.flatMap_def, hattrs]
    exact Batches.cutFrom_flatten hbatches
  · intro c hc
    obtain ⟨x, -, hx⟩ := Batches.mem_of_mapM hout hc
    exact (encodeChunk_some hx).2.1
  · intro c hc hlen
    obtain ⟨⟨batch, isLast⟩, hmem, hx⟩ := Batches.mem_of_mapM hout hc
    obtain ⟨hattrs, hevents, hsub, -, -⟩ := encodeChunk_some hx
    have hfits := Batches.cutFrom_fits hbatches (fun h => absurd h (by decide)) batch
      (Batches.mem_withLast hmem)
    rw [hattrs] at hlen
    obtain ⟨b, hb, hover⟩ := Option.map_eq_some_iff.1 (hfits hlen)
    have hencoded := c.encoded
    rw [hattrs, hevents, hsub] at hencoded
    exact Nat.le_trans (length_encodeReportDataFull_le hb hencoded)
      (Nat.le_of_not_lt (of_decide_eq_false hover))
  · refine flagged_of_mapM (Batches.cutFrom_ne_nil hbatches) hout ?_
    exact fun x c hc => (encodeChunk_some hc).2.2.2.1

theorem eventChunks_carries {subId : UInt32} (h : eventChunks events budget subId = some chunks) :
    CarriesEvents chunks events budget ∧ (events = [] ∧ chunks = [] ∨ Flagged chunks false) := by
  unfold eventChunks at h
  obtain ⟨batches, hbatches, hout⟩ := Option.bind_eq_some_iff.1 h
  have hflat := flatten_batchesFrom hbatches
  have hfits : ∀ batch ∈ batches, Batches.Fits (eventsOverflow budget subId) batch := by
    cases events with
    | nil =>
      cases hbatches
      exact List.forall_mem_nil _
    | cons e events =>
      rw [batchesFrom_eq_cutFrom (List.cons_ne_nil _ _)] at hbatches
      exact Batches.cutFrom_fits hbatches fun h => absurd h (by decide)
  refine ⟨⟨?_, ?_, ?_⟩, ?_⟩
  · have hevents : chunks.map (·.events) = (Batches.withLast batches).map Prod.fst :=
      Batches.map_eq_of_mapM hout fun _ _ hc => (encodeChunk_some hc).2.1
    rw [Batches.withLast_fst] at hevents
    rw [List.flatMap_def, hevents]
    exact hflat
  · intro c hc
    obtain ⟨x, -, hx⟩ := Batches.mem_of_mapM hout hc
    exact (encodeChunk_some hx).1
  · intro c hc hlen
    obtain ⟨⟨batch, isLast⟩, hmem, hx⟩ := Batches.mem_of_mapM hout hc
    obtain ⟨hattrs, hevents, hsub, -, -⟩ := encodeChunk_some hx
    rw [hevents] at hlen
    obtain ⟨b, hb, hover⟩ := Option.map_eq_some_iff.1 (hfits batch (Batches.mem_withLast hmem) hlen)
    have hencoded := c.encoded
    rw [hattrs, hevents, hsub] at hencoded
    exact Nat.le_trans (length_encodeReportDataFull_le hb hencoded)
      (Nat.le_of_not_lt (of_decide_eq_false hover))
  · cases batches with
    | nil =>
      rw [Batches.withLast, List.zipIdx_nil] at hout
      cases hout
      rw [List.flatten_nil, List.nil_append] at hflat
      exact .inl ⟨hflat.symm, rfl⟩
    | cons b bs =>
      refine .inr (flagged_of_mapM (List.cons_ne_nil _ _) hout fun x c hc => ?_)
      rw [(encodeChunk_some hc).2.2.2.1, Bool.or_false]

theorem attrsOverflow_isSome {batch : List ReportEntryOut} :
    (attrsOverflow budget subId batch).isSome ↔ ∀ e ∈ batch, e.bytes.isSome := by
  rw [attrsOverflow, Option.isSome_map]
  exact isSome_encodeReportDataFull_iff

theorem isSome_encodeChunk {attrs : List ReportEntryOut} {suppress more : Bool} :
    (encodeChunk attrs [] suppress subId more).isSome ↔ ∀ e ∈ attrs, e.bytes.isSome := by
  rw [← isSome_encodeReportDataFull_iff, ← encodeChunk_payload, Option.isSome_map]

/-- The report can be made exactly when every value in it is a TLV element. -/
theorem isSome_readChunks :
    (n.readChunks paths ctx budget subId trailer).isSome ↔
      ∀ e ∈ n.readEntries paths ctx, e.bytes.isSome := by
  constructor
  · intro h e he
    obtain ⟨chunks, hchunks⟩ := Option.isSome_iff_exists.1 h
    obtain ⟨batches, hbatches, -⟩ := Option.bind_eq_some_iff.1 hchunks
    obtain ⟨batch, hmem, htried⟩ := Batches.tried_of_cutFrom hbatches he
    exact attrsOverflow_isSome.1 htried e hmem
  · intro h
    have hcut : (Batches.cutFrom (attrsOverflow budget subId) [] (n.readEntries paths ctx)).isSome :=
      Batches.isSome_cutFrom fun batch hbatch =>
        attrsOverflow_isSome.2 fun e he => h e (hbatch e he)
    obtain ⟨batches, hbatches⟩ := Option.isSome_iff_exists.1 hcut
    have hflat := Batches.cutFrom_flatten hbatches
    unfold NodeView.readChunks Batches.cut
    dsimp only
    rw [hbatches, Option.bind_eq_bind, Option.bind_some]
    refine Batches.isSome_mapM fun x hx => isSome_encodeChunk.2 fun e he => h e ?_
    rw [List.nil_append] at hflat
    rw [← hflat]
    exact List.mem_flatten_of_mem (Batches.mem_withLast (b := x.2) hx) he

theorem isSome_eventChunks {subId : UInt32} (h : ∀ e ∈ events, e.bytes.isSome) :
    (eventChunks events budget subId).isSome := by
  have hnone : ∀ more, (attrsLength [] false (some subId) more).isSome := by
    intro more
    rw [attrsLength, Option.isSome_map]
    exact isSome_encodeReportDataFull_iff.2 (List.forall_mem_nil _)
  have hchunks : (chunkEvents events budget subId).isSome :=
    isSome_chunkEvents (hnone true) (hnone false) h
  rwa [chunkEvents_eq_eventChunks, Option.isSome_map] at hchunks

end

/-- **The contract of chunked reports.** Where every value is a TLV element, as handlers promise, a
report on any paths under any budget comes in messages that carry the entries of the report in their
order. A message of several entries is not too long; there is one at least; all but the last say
that another follows, and the last says whether a trailer does. The first report of a subscription
is one such sequence, the events behind the attributes. -/
theorem readChunks_contract (n : NodeView) (paths : List AttrPathIn) (ctx : ReadCtx) (budget : Nat) :
    (∀ subId trailer, (n.readChunks paths ctx budget subId trailer).isSome ↔
      ∀ e ∈ n.readEntries paths ctx, e.bytes.isSome) ∧
    (∀ subId trailer chunks, n.readChunks paths ctx budget subId trailer = some chunks →
      CarriesAttrs chunks (n.readEntries paths ctx) budget ∧ chunks ≠ [] ∧
        Flagged chunks trailer) ∧
    (∀ events subId, (∀ e ∈ n.readEntries paths ctx, e.bytes.isSome) →
      (∀ e ∈ events, e.bytes.isSome) →
        (n.primingChunks paths ctx events budget subId).isSome) ∧
    ∀ events subId chunks, n.primingChunks paths ctx events budget subId = some chunks →
      ∃ attrChunks eventChunks, chunks = attrChunks ++ eventChunks ∧
        CarriesAttrs attrChunks (n.readEntries paths ctx) budget ∧
        CarriesEvents eventChunks events budget ∧ Flagged chunks false := by
  refine ⟨fun _ _ => isSome_readChunks, ?_, ?_, ?_⟩
  · intro subId trailer chunks h
    obtain ⟨hcarries, hflagged⟩ := readChunks_carries h
    exact ⟨hcarries, hflagged.ne_nil, hflagged⟩
  · intro events subId hattrs hevents
    have hattr : (n.readChunks paths ctx budget (some subId) !events.isEmpty).isSome :=
      isSome_readChunks.2 hattrs
    have hevent : (eventChunks events budget subId).isSome := isSome_eventChunks hevents
    obtain ⟨attrChunks, ha⟩ := Option.isSome_iff_exists.1 hattr
    obtain ⟨evChunks, he⟩ := Option.isSome_iff_exists.1 hevent
    rw [NodeView.primingChunks, ha, he]
    rfl
  · intro events subId chunks h
    obtain ⟨attrChunks, ha, h⟩ := Option.bind_eq_some_iff.1 h
    obtain ⟨evChunks, he, h⟩ := Option.bind_eq_some_iff.1 h
    cases h
    obtain ⟨hattrs, hflagged⟩ := readChunks_carries ha
    obtain ⟨hevents, hcases⟩ := eventChunks_carries he
    refine ⟨attrChunks, evChunks, rfl, hattrs, hevents, ?_⟩
    obtain ⟨rfl, rfl⟩ | hflagged' := hcases
    · rw [List.append_nil]
      exact hflagged
    · cases events with
      | nil =>
        -- without events there is no chunk of them, and the attributes end the report
        have := he.symm.trans (rfl : eventChunks [] budget subId = some [])
        cases this
        exact absurd rfl hflagged'.ne_nil
      | cons e events => exact hflagged.append hflagged'

/-- A node without clusters, asked for an event it does not have. -/
theorem readChunks_contract_status :
    ∃ chunks, (⟨⟨[], List.nodup_nil, List.forall_mem_nil _⟩, none, fun _ _ => 0⟩ : NodeView).primingChunks
        [] ⟨1, true, .default⟩ [.status 0 6 1 0x8F] 900 7 = some chunks ∧ Flagged chunks false := by
  have hattrs : ∀ e ∈ (⟨⟨[], List.nodup_nil, List.forall_mem_nil _⟩, none, fun _ _ => 0⟩ :
      NodeView).readEntries [] ⟨1, true, .default⟩, e.bytes.isSome := List.forall_mem_nil _
  have hevents : ∀ e ∈ ([.status 0 6 1 0x8F] : List EventEntryOut), e.bytes.isSome :=
    List.forall_mem_singleton.2 (by decide)
  obtain ⟨-, -, hsome, hcontract⟩ := readChunks_contract
    ⟨⟨[], List.nodup_nil, List.forall_mem_nil _⟩, none, fun _ _ => 0⟩ [] ⟨1, true, .default⟩ 900
  obtain ⟨chunks, hchunks⟩ := Option.isSome_iff_exists.1 (hsome _ 7 hattrs hevents)
  obtain ⟨_, _, -, -, -, hflagged⟩ := hcontract _ 7 chunks hchunks
  exact ⟨chunks, hchunks, hflagged⟩

end MatStack
