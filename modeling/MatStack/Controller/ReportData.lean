import MatStack.Controller.Tlv
import Mathlib.Algebra.BigOperators.Group.List.Basic
import Mathlib.Algebra.Order.BigOperators.Group.List
import Mathlib.Algebra.Order.Group.Nat
import Mathlib.Algebra.Ring.Nat

/-!
# Report data

The paths of a read, of a subscription and of an event request, the entries of a report, and their
encoding. A path's field that is absent stands for all of them.

Every encoder only appends, and what it appends does not depend on what was written before. So the
event half of a report takes the bytes of its entries, one after the other, and the order of the
entries, or leaving some of them out, makes no report longer: `Fits.of_subperm`.
-/

namespace MatStack

def imRevision : UInt8 := 12

/-! ## Paths and entries -/

/-- A requested attribute path. -/
structure AttrPathIn where
  endpoint : Option UInt16
  cluster : Option UInt32
  attr : Option UInt32
deriving Repr, DecidableEq

/-- A requested event path. -/
structure EventPathIn where
  endpoint : Option UInt16
  cluster : Option UInt32
  event : Option UInt32
  urgent : Bool
deriving Repr, DecidableEq

/-- The value of an attribute in a report. -/
structure AttrReportOut where
  endpoint : UInt16
  cluster : UInt32
  attr : UInt32
  dataVersion : UInt32
  valueTlv : Bytes
deriving DecidableEq

/-- One entry of the attribute half of a report. -/
inductive ReportEntryOut where
  | data (report : AttrReportOut)
  | status (endpoint : UInt16) (cluster attr : UInt32) (status : UInt8)
deriving DecidableEq

inductive EventPriority where
  | debug
  | info
  | critical
deriving Repr, DecidableEq

def EventPriority.toWire : EventPriority → UInt8
  | debug => 0
  | info => 1
  | critical => 2

/-- An event in a report. -/
structure EventReportOut where
  endpoint : UInt16
  cluster : UInt32
  event : UInt32
  eventNumber : UInt64
  priority : EventPriority
  systemTimestampMs : UInt64
  dataTlv : Option Bytes
deriving DecidableEq

/-- One entry of the event half of a report. -/
inductive EventEntryOut where
  | data (report : EventReportOut)
  | status (endpoint : UInt16) (cluster event : UInt32) (status : UInt8)
deriving DecidableEq

/-! ## Encoding -/

def putAttributePath (w : Writer) (tag : Tag) (endpoint : UInt16) (cluster : UInt32)
    (attr : Option UInt32) : Writer :=
  let w := (w.startList tag).putUint (.context 2) endpoint.toUInt64
  let w := w.putUint (.context 3) cluster.toUInt64
  let w := match attr with
    | some attr => w.putUint (.context 4) attr.toUInt64
    | none => w
  w.endContainer

def putStatusIb (w : Writer) (tag : Tag) (status : UInt8) (clusterStatus : Option UInt8) : Writer :=
  let w := (w.startStruct tag).putUint (.context 0) status.toUInt64
  let w := match clusterStatus with
    | some cs => w.putUint (.context 1) cs.toUInt64
    | none => w
  w.endContainer

def encodeEventPathIb (w : Writer) (tag : Tag) (path : EventPathIn) : Writer :=
  let put (field : UInt8) (v : Option UInt64) (w : Writer) : Writer :=
    match v with
    | some v => w.putUint (.context field) v
    | none => w
  let w := put 1 (path.endpoint.map (·.toUInt64)) (w.startList tag)
  let w := put 3 (path.event.map (·.toUInt64)) (put 2 (path.cluster.map (·.toUInt64)) w)
  let w := if path.urgent then w.putBool (.context 4) true else w
  w.endContainer

/-- One attribute entry; `none` where the value is no TLV element, which panics. -/
def encodeAttributeReportIb (w : Writer) (entry : ReportEntryOut) : Option Writer := do
  let w := w.startStruct .anonymous
  let w ← match entry with
    | .data report => do
      let w := (w.startStruct (.context 1)).putUint (.context 0) report.dataVersion.toUInt64
      let w := putAttributePath w (.context 1) report.endpoint report.cluster (some report.attr)
      let w ← w.putRawElement (.context 2) report.valueTlv
      pure w.endContainer
    | .status endpoint cluster attr status =>
      let w := putAttributePath (w.startStruct (.context 0)) (.context 0) endpoint cluster
        (some attr)
      pure (putStatusIb w (.context 1) status none).endContainer
  return w.endContainer

/-- One event entry; `none` where the payload is no TLV element. -/
def encodeEventReportIb (w : Writer) (entry : EventEntryOut) : Option Writer := do
  let w := w.startStruct .anonymous
  let w ← match entry with
    | .data d => do
      let w := encodeEventPathIb (w.startStruct (.context 1)) (.context 0)
        ⟨some d.endpoint, some d.cluster, some d.event, false⟩
      let w := (w.putUint (.context 1) d.eventNumber).putUint (.context 2) d.priority.toWire.toUInt64
      let w := w.putUint (.context 4) d.systemTimestampMs
      let w ← match d.dataTlv with
        | some tlv => w.putRawElement (.context 7) tlv
        | none => some w
      pure w.endContainer
    | .status endpoint cluster event status =>
      let w := encodeEventPathIb (w.startStruct (.context 0)) (.context 0)
        ⟨some endpoint, some cluster, some event, false⟩
      pure (putStatusIb w (.context 1) status none).endContainer
  return w.endContainer

/-- A report; the event half is left out when it is empty. -/
def encodeReportDataFull (attrs : List ReportEntryOut) (events : List EventEntryOut)
    (suppressResponse : Bool) (subscriptionId : Option UInt32) (moreChunks : Bool) :
    Option Bytes := do
  let w := Writer.new.startStruct .anonymous
  let w := match subscriptionId with
    | some subId => w.putUint (.context 0) subId.toUInt64
    | none => w
  let w := (← attrs.foldlM encodeAttributeReportIb (w.startArray (.context 1))).endContainer
  let w ← if events.isEmpty then some w
    else (events.foldlM encodeEventReportIb (w.startArray (.context 2))).map (·.endContainer)
  let w := if moreChunks then w.putBool (.context 3) true else w
  let w := (w.putBool (.context 4) suppressResponse).putUint (.context 255) imRevision.toUInt64
  return w.endContainer.finish

/-! ## Encoders that append -/

namespace Writer

/-- An encoder fails, or appends bytes, whatever was written before. -/
def Appends (f : Writer → Option Writer) : Prop :=
  ∃ b : Option Bytes, ∀ w, (f w).map (·.buf) = b.map (w.buf ++ ·)

section
variable {f g : Writer → Option Writer}

theorem Appends.of_eq {f : Writer → Writer} {b : Bytes} (h : ∀ w, (f w).buf = w.buf ++ b) :
    Appends fun w => some (f w) :=
  ⟨some b, fun w => by rw [Option.map_some, Option.map_some, h]⟩

theorem Appends.bind (hf : Appends f) (hg : Appends g) : Appends fun w => (f w).bind g := by
  obtain ⟨b, hb⟩ := hf
  obtain ⟨c, hc⟩ := hg
  refine ⟨b.bind fun b => c.map (b ++ ·), fun w => ?_⟩
  dsimp only
  have hw := hb w
  cases hfw : f w with
  | none =>
    rw [hfw, Option.map_none] at hw
    rw [Option.map_eq_none_iff.1 hw.symm]
    rfl
  | some w' =>
    rw [hfw, Option.map_some] at hw
    obtain ⟨b', hb', hbuf⟩ := Option.map_eq_some_iff.1 hw.symm
    rw [hb', Option.bind_some, Option.bind_some, hc, ← hbuf]
    cases c with
    | none => rfl
    | some c => simp

/-- An encoder that cannot fail, and then another. -/
theorem Appends.comp {f : Writer → Writer} (hf : Appends fun w => some (f w)) (hg : Appends g) :
    Appends fun w => g (f w) := hf.bind hg

theorem appends_push (b : Bytes) : Appends fun w => some (w.push b) := .of_eq fun _ => rfl

theorem appends_controlAndTag (typeBits : UInt8) (tag : Tag) :
    Appends fun w => some (w.controlAndTag typeBits tag) := by
  cases tag <;> exact appends_push _

theorem appends_putUint (tag : Tag) (v : UInt64) : Appends fun w => some (w.putUint tag v) := by
  unfold putUint
  split_ifs <;> exact (appends_controlAndTag _ _).comp (appends_push _)

theorem appends_putInt (tag : Tag) (v : Int64) : Appends fun w => some (w.putInt tag v) := by
  unfold putInt
  dsimp only
  split_ifs <;> exact (appends_controlAndTag _ _).comp (appends_push _)

theorem appends_putLenPrefixed (baseType : UInt8) (tag : Tag) (data : Bytes) :
    Appends fun w => some (w.putLenPrefixed baseType tag data) := by
  unfold putLenPrefixed
  dsimp only
  split_ifs <;>
    exact ((appends_controlAndTag _ _).comp (appends_push _)).comp (appends_push _)

theorem appends_start (typeBits : UInt8) (tag : Tag) :
    Appends fun w => some (w.start typeBits tag) := by
  obtain ⟨b, hb⟩ := appends_controlAndTag typeBits tag
  exact ⟨b, hb⟩

theorem appends_endContainer : Appends fun w => some w.endContainer := .of_eq fun _ => rfl

/-- An encoder that writes at most one of several things. -/
theorem appends_match {α : Type} {f : α → Writer → Option Writer} (x : Option α)
    (h : ∀ a, Appends (f a)) : Appends fun w => match x with
      | some a => f a w
      | none => some w := by
  cases x with
  | none => exact .of_eq (b := []) fun w => (List.append_nil _).symm
  | some a => exact h a

end

/-- What is copied does not depend on where it is copied to, nor does what is left to read. -/
def CopyAppends (f : Writer → Reader → Except TlvError (Writer × Reader)) : Prop :=
  ∀ r, ∃ out : Except TlvError (Bytes × Reader), ∀ w,
    (f w r).map (fun x => (x.1.buf, x.2)) = out.map fun x => (w.buf ++ x.1, x.2)

section
variable {f g : Writer → Reader → Except TlvError (Writer × Reader)}

theorem CopyAppends.ok {f : Writer → Writer} (h : Appends fun w => some (f w)) :
    CopyAppends fun w r => .ok (f w, r) := by
  intro r
  obtain ⟨b, hb⟩ := h
  cases b with
  | none => exact absurd (hb new) (by simp)
  | some b =>
    refine ⟨.ok (b, r), fun w => ?_⟩
    have hw : (f w).buf = w.buf ++ b := by simpa using hb w
    simp [Except.map, hw]

/-- One copy after the other, from where the first one stopped. -/
theorem CopyAppends.bind (hf : CopyAppends f) (hg : CopyAppends g) :
    CopyAppends fun w r => match f w r with
      | .error e => .error e
      | .ok (w, r) => g w r := by
  intro r
  obtain ⟨out, hout⟩ := hf r
  cases out with
  | error e =>
    refine ⟨.error e, fun w => ?_⟩
    have hw := hout w
    cases hfw : f w r with
    | error e' => simpa only [hfw] using hw
    | ok x => rw [hfw] at hw; cases hw
  | ok x =>
    obtain ⟨b, r'⟩ := x
    obtain ⟨out', hout'⟩ := hg r'
    refine ⟨out'.map fun x => (b ++ x.1, x.2), fun w => ?_⟩
    have hw := hout w
    cases hfw : f w r with
    | error e' => rw [hfw] at hw; cases hw
    | ok y =>
      rw [hfw] at hw
      obtain ⟨w', r''⟩ := y
      obtain ⟨hbuf, hr⟩ : w'.buf = w.buf ++ b ∧ r'' = r' := by
        simpa [Except.map] using hw
      subst hr
      simp only [hfw, hout', hbuf]
      cases out' with
      | error e' => rfl
      | ok x => simp [Except.map]

theorem CopyAppends.comp {f : Writer → Writer} (hf : Appends fun w => some (f w))
    (hg : CopyAppends g) : CopyAppends fun w r => g (f w) r := (CopyAppends.ok hf).bind hg

theorem copyAppends_copyValueWith (hg : CopyAppends g) (tag : Tag) (value : Value) :
    CopyAppends fun w r => copyValueWith g w r tag value := by
  cases value with
  | int v => exact .ok (appends_putInt tag v)
  | uint v => exact .ok (appends_putUint tag v)
  | bool v => exact .ok (appends_controlAndTag _ tag)
  | f32 bits | f64 bits => exact .ok ((appends_controlAndTag _ tag).comp (appends_push _))
  | utf8 v | bytes v => exact .ok (appends_putLenPrefixed _ tag _)
  | null => exact .ok (appends_controlAndTag _ tag)
  | structStart | arrayStart | listStart => exact .comp (appends_start _ tag) hg
  | containerEnd => exact .ok (.of_eq (b := []) fun _ => (List.append_nil _).symm)

/-- A container is copied as it is, by induction on the members that may be left. -/
theorem copyAppends_copyContainer (fuel : Nat) : CopyAppends (copyContainer fuel) := by
  induction fuel with
  | zero => exact fun _ => ⟨.error .truncated, fun _ => rfl⟩
  | succ fuel ih =>
    intro r
    unfold copyContainer
    split
    · exact ⟨.error _, fun _ => rfl⟩
    · exact ⟨.error _, fun _ => rfl⟩
    · next el r _ =>
      split
      · exact CopyAppends.ok appends_endContainer r
      · exact (copyAppends_copyValueWith ih el.tag el.value).bind ih r

theorem appends_putRawElement (tag : Tag) (element : Bytes) :
    Appends fun w => w.putRawElement tag element := by
  unfold putRawElement
  split
  · next el r _ =>
    obtain ⟨out, hout⟩ :=
      copyAppends_copyValueWith (copyAppends_copyContainer r.rest.length) tag el.value r
    refine ⟨(out.toOption).map (·.1), fun w => ?_⟩
    have hw := hout w
    unfold copyValue
    dsimp only at hw ⊢
    cases hc : copyValueWith (copyContainer r.rest.length) w r tag el.value with
    | error e =>
      rw [hc] at hw
      cases out with
      | error e' => rfl
      | ok x => cases hw
    | ok x =>
      rw [hc] at hw
      cases out with
      | error e' => cases hw
      | ok y => simpa [Except.map, Except.toOption] using (Prod.mk.inj (Except.ok.inj hw)).1
  · exact ⟨none, fun _ => rfl⟩

end

end Writer

/-! ## The size of the event half -/

open Writer

theorem appends_encodeEventPathIb (tag : Tag) (path : EventPathIn) :
    Appends fun w => some (encodeEventPathIb w tag path) := by
  have hput : ∀ (field : UInt8) (v : Option UInt64), Appends fun w => some (match v with
      | some v => w.putUint (.context field) v
      | none => w) := fun field v => by
    cases v with
    | none => exact .of_eq (b := []) fun w => (List.append_nil _).symm
    | some v => exact appends_putUint _ v
  have hurgent : Appends fun w => some (if path.urgent then w.putBool (.context 4) true else w) := by
    split
    · exact appends_controlAndTag _ _
    · exact .of_eq (b := []) fun w => (List.append_nil _).symm
  exact ((((appends_start 0x17 tag).comp (hput 1 _)).comp (hput 2 _)).comp (hput 3 _)).comp
    (hurgent.comp appends_endContainer)

theorem appends_encodeEventReportIb (entry : EventEntryOut) :
    Appends fun w => encodeEventReportIb w entry := by
  have hopen : ∀ tag : Tag, Appends fun w => some ((w.startStruct .anonymous).startStruct tag) :=
    fun tag => (appends_start 0x15 .anonymous).comp (appends_start 0x15 tag)
  have hclose : Appends fun w => some w.endContainer.endContainer :=
    appends_endContainer.comp appends_endContainer
  cases entry with
  | data d =>
    have hpath := (hopen (.context 1)).comp (appends_encodeEventPathIb (.context 0)
      ⟨some d.endpoint, some d.cluster, some d.event, false⟩)
    have hfields := ((hpath.comp (appends_putUint (.context 1) d.eventNumber)).comp
      (appends_putUint (.context 2) d.priority.toWire.toUInt64)).comp
        (appends_putUint (.context 4) d.systemTimestampMs)
    obtain ⟨endpoint, cluster, event, number, priority, timestamp, tlv⟩ := d
    cases tlv with
    | none => exact hfields.comp hclose
    | some tlv =>
      have hraw := hfields.comp ((appends_putRawElement (.context 7) tlv).bind hclose)
      refine cast (congrArg Appends (funext fun w => ?_)) hraw
      unfold encodeEventReportIb
      dsimp only
      cases Writer.putRawElement _ (.context 7) tlv <;> rfl
  | status endpoint cluster event status =>
    have hpath := (hopen (.context 0)).comp (appends_encodeEventPathIb (.context 0)
      ⟨some endpoint, some cluster, some event, false⟩)
    have hstatus := (hpath.comp (appends_start 0x15 (.context 1))).comp
      (appends_putUint (.context 0) status.toUInt64)
    exact (hstatus.comp appends_endContainer).comp hclose

/-- What an entry adds to a report. -/
def EventEntryOut.bytes (entry : EventEntryOut) : Option Bytes :=
  (encodeEventReportIb .new entry).map (·.buf)

def EventEntryOut.size (entry : EventEntryOut) : Nat := (entry.bytes.getD []).length

theorem buf_encodeEventReportIb (w : Writer) (entry : EventEntryOut) :
    (encodeEventReportIb w entry).map (·.buf) = entry.bytes.map (w.buf ++ ·) := by
  obtain ⟨b, hb⟩ := appends_encodeEventReportIb entry
  have hnew : entry.bytes = b := by
    rw [EventEntryOut.bytes, hb .new]
    cases b <;> rfl
  rw [hb, hnew]

/-- The length that a report has without its events, if it can be encoded. -/
def attrsLength (attrs : List ReportEntryOut) (suppressResponse : Bool)
    (subscriptionId : Option UInt32) (moreChunks : Bool) : Option Nat :=
  (encodeReportDataFull attrs [] suppressResponse subscriptionId moreChunks).map (·.length)

/-- A report can be encoded in at most `budget` bytes. -/
def FitsReport (attrs : List ReportEntryOut) (events : List EventEntryOut) (suppressResponse : Bool)
    (subscriptionId : Option UInt32) (moreChunks : Bool) (budget : Nat) : Prop :=
  ∃ b, encodeReportDataFull attrs events suppressResponse subscriptionId moreChunks = some b ∧
    b.length ≤ budget

section
variable {attrs : List ReportEntryOut} {events : List EventEntryOut} {suppress more : Bool}
  {subId : Option UInt32} {budget : Nat} {w w' : Writer}

/-- The entries are written one after the other. -/
theorem foldlM_encodeEventReportIb :
    (events.foldlM encodeEventReportIb w).map (·.buf.length) =
      if ∀ e ∈ events, e.bytes.isSome then some (w.buf.length + (events.map (·.size)).sum)
      else none := by
  induction events generalizing w with
  | nil => simp
  | cons e events ih =>
    have he := buf_encodeEventReportIb w e
    rw [List.foldlM_cons]
    cases hb : e.bytes with
    | none =>
      rw [hb, Option.map_none, Option.map_eq_none_iff] at he
      rw [he, if_neg fun h => by simpa [hb] using h e List.mem_cons_self]
      rfl
    | some b =>
      rw [hb, Option.map_some] at he
      obtain ⟨w', hw', hbuf⟩ := Option.map_eq_some_iff.1 he
      rw [hw', Option.bind_eq_bind, Option.bind_some, ih]
      have hsize : e.size = b.length := by rw [EventEntryOut.size, hb, Option.getD_some]
      simp only [List.forall_mem_cons, hb, Option.isSome_some, true_and, List.map_cons,
        List.sum_cons, hbuf, List.length_append, hsize, Nat.add_assoc]

/-- A report up to its attribute half. -/
def reportHead (attrs : List ReportEntryOut) (subscriptionId : Option UInt32) : Option Writer :=
  let w := Writer.new.startStruct .anonymous
  let w := match subscriptionId with
    | some subId => w.putUint (.context 0) subId.toUInt64
    | none => w
  (attrs.foldlM encodeAttributeReportIb (w.startArray (.context 1))).map (·.endContainer)

/-- What follows the entries. -/
def reportTail (suppressResponse moreChunks : Bool) (w : Writer) : Writer :=
  let w := if moreChunks then w.putBool (.context 3) true else w
  ((w.putBool (.context 4) suppressResponse).putUint (.context 255)
    imRevision.toUInt64).endContainer

theorem encodeReportDataFull_eq :
    encodeReportDataFull attrs events suppress subId more =
      (reportHead attrs subId).bind fun w =>
        (if events.isEmpty then some w
          else (events.foldlM encodeEventReportIb (w.startArray (.context 2))).map
            (·.endContainer)).map fun w => (reportTail suppress more w).finish := by
  unfold encodeReportDataFull reportHead
  dsimp only
  cases List.foldlM encodeAttributeReportIb (Writer.startArray _ (.context 1)) attrs with
  | none => rfl
  | some w =>
    cases events with
    | nil => rfl
    | cons e events =>
      simp only [List.isEmpty_cons, Bool.false_eq_true, if_false, Option.map_some, Option.bind_some,
        Option.bind_eq_bind]
      cases List.foldlM encodeEventReportIb _ (e :: events) <;> rfl

theorem appends_reportTail : Appends fun w => some (reportTail suppress more w) := by
  have hmore : Appends fun w => some (if more then w.putBool (.context 3) true else w) := by
    split
    · exact appends_controlAndTag _ _
    · exact .of_eq (b := []) fun w => (List.append_nil _).symm
  exact (((hmore.comp (appends_controlAndTag (if suppress then 0x09 else 0x08) (.context 4))).comp
    (appends_putUint (.context 255) imRevision.toUInt64)).comp appends_endContainer :)

/-- The length of a report: the attribute half, and the entries of the event half in an array if
there are any. -/
theorem length_encodeReportDataFull :
    (encodeReportDataFull attrs events suppress subId more).map (·.length) =
      if ∀ e ∈ events, e.bytes.isSome then
        (attrsLength attrs suppress subId more).map fun head =>
          head + (if events = [] then 0 else 3 + (events.map (·.size)).sum)
      else none := by
  obtain ⟨tail, htail⟩ : ∃ tail : Nat, ∀ w : Writer,
      (reportTail suppress more w).finish.length = w.buf.length + tail := by
    obtain ⟨b, hb⟩ := @appends_reportTail suppress more
    cases b with
    | none => exact absurd (hb .new) (by simp)
    | some b => exact ⟨b.length, fun w => by simpa [finish] using congrArg (·.map List.length) (hb w)⟩
  unfold attrsLength
  rw [encodeReportDataFull_eq, encodeReportDataFull_eq]
  cases reportHead attrs subId with
  | none => simp
  | some w =>
    cases events with
    | nil => simp
    | cons e events =>
      have hfold := @foldlM_encodeEventReportIb (e :: events) (w.startArray (.context 2))
      have hstart : (w.startArray (.context 2)).buf.length = w.buf.length + 2 := by
        simp [startArray, start, controlAndTag, push]
      rw [hstart] at hfold
      simp only [Option.bind_some, List.isEmpty_cons, List.isEmpty_nil, Bool.false_eq_true, if_false,
        if_true, reduceCtorEq, Option.map_some, Option.map_map]
      split at hfold
      · next hall =>
        obtain ⟨w', hw', hbuf⟩ := Option.map_eq_some_iff.1 hfold
        rw [if_pos hall, hw', Option.map_some]
        simp only [Function.comp_apply, htail, endContainer, push, List.length_append, hbuf,
          List.length_singleton]
        congr 1
        omega
      · next hall =>
        rw [Option.map_eq_none_iff] at hfold
        rw [if_neg hall, hfold, Option.map_none]

/-- A report can be encoded if its attribute half and each of its events can. -/
theorem isSome_encodeReportDataFull (hattrs : (attrsLength attrs suppress subId more).isSome)
    (hevents : ∀ e ∈ events, e.bytes.isSome) :
    (encodeReportDataFull attrs events suppress subId more).isSome := by
  have hlen : (encodeReportDataFull attrs events suppress subId more).map (·.length) = _ :=
    length_encodeReportDataFull
  rw [if_pos hevents] at hlen
  rw [← Option.isSome_map (f := List.length), hlen, Option.isSome_map]
  exact hattrs

/-- A report fits if its attribute half can be encoded and each of its events, and their lengths add
up to at most the budget. -/
theorem fitsReport_iff :
    FitsReport attrs events suppress subId more budget ↔
      (∀ e ∈ events, e.bytes.isSome) ∧ ∃ head, attrsLength attrs suppress subId more = some head ∧
        head + (if events = [] then 0 else 3 + (events.map (·.size)).sum) ≤ budget := by
  have hlen : (encodeReportDataFull attrs events suppress subId more).map (·.length) = _ :=
    length_encodeReportDataFull
  constructor
  · rintro ⟨b, hb, hle⟩
    rw [hb, Option.map_some] at hlen
    split at hlen
    · next hall =>
      obtain ⟨head, hhead, heq⟩ := Option.map_eq_some_iff.1 hlen.symm
      exact ⟨hall, head, hhead, heq ▸ hle⟩
    · cases hlen
  · rintro ⟨hall, head, hhead, hle⟩
    rw [if_pos hall, hhead, Option.map_some] at hlen
    obtain ⟨b, hb, heq⟩ := Option.map_eq_some_iff.1 hlen
    exact ⟨b, hb, heq ▸ hle⟩

/-- **Shorter reports.** A report of some of the events, in any order, fits where all of them do. -/
theorem FitsReport.of_subperm {events' : List EventEntryOut}
    (h : FitsReport attrs events suppress subId more budget) (hsub : events'.Subperm events) :
    FitsReport attrs events' suppress subId more budget := by
  obtain ⟨hall, head, hhead, hle⟩ := fitsReport_iff.1 h
  refine fitsReport_iff.2 ⟨fun e he => hall e (hsub.subset he), head, hhead, ?_⟩
  obtain ⟨l, hperm, hl⟩ := hsub
  have hsum : (events'.map (·.size)).sum ≤ (events.map (·.size)).sum := by
    rw [← (hperm.map (·.size)).sum_eq]
    exact (hl.map _).sum_le_sum fun _ _ => Nat.zero_le _
  refine Nat.le_trans (Nat.add_le_add_left ?_ head) hle
  by_cases he : events' = []
  · simp [he]
  · have hne : events ≠ [] := by
      rintro rfl
      exact he (List.perm_nil.1 (hperm.symm.trans (List.sublist_nil.1 hl ▸ .refl _)))
    rw [if_neg he, if_neg hne]
    exact Nat.add_le_add_left hsum 3

end

end MatStack
