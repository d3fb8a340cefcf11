import MatStack.Device.Node
import MatStack.Device.Read

/-!
# Attribute reports of a subscription

A subscription collects the paths of changed attributes that it covers, and reports them by reading
them back, each by its own concrete path. What it reports is what re-reading the subscription's
requested paths would give at the changed attributes: both are the node's answers at those
attributes, with the same statuses left out.
-/

namespace MatStack

/-- How far before the greatest interval a report goes out that says nothing. -/
def keepAliveMs : Nat := 2000

/-- A subscription. Intervals are the negotiated ones. -/
structure ActiveSubscription where
  id : UInt32
  paths : List AttrPathIn
  fabricFiltered : Bool
  minInterval : Nat
  maxInterval : Nat
  lastReportAt : Instant
  dirty : List AttrPath
  eventPaths : List EventPathIn
  nextEvent : UInt64
  pendingUrgent : Bool

namespace ActiveSubscription

def keepAliveMargin (sub : ActiveSubscription) : Nat := min keepAliveMs (sub.maxInterval / 2)

/-- When the next report is due. -/
def nextReportDeadline (sub : ActiveSubscription) : Instant :=
  if sub.dirty.isEmpty && !sub.pendingUrgent then
    sub.lastReportAt + sub.maxInterval - sub.keepAliveMargin
  else sub.lastReportAt + sub.minInterval

/-- Some requested path matches. -/
def covers (sub : ActiveSubscription) (path : AttrPath) : Bool :=
  sub.paths.any fun p => pathMatches p path

/-- Some requested path names exactly this attribute. -/
def coveredConcretely (sub : ActiveSubscription) (path : AttrPath) : Bool :=
  sub.paths.any fun p => p.endpoint.isSome && p.cluster.isSome && p.attr.isSome && pathMatches p path

/-- Notes the changed paths that are covered, each once. -/
def noteChanged (sub : ActiveSubscription) (changed : List AttrPath) : ActiveSubscription :=
  changed.foldl (fun sub path =>
    if sub.covers path && !sub.dirty.contains path then { sub with dirty := sub.dirty ++ [path] }
    else sub) sub

/-- Leaves out the statuses of attributes that no requested path names. -/
def retainReportable (sub : ActiveSubscription) (entries : List ReportEntryOut) :
    List ReportEntryOut :=
  entries.filter fun e =>
    match e with
    | .data _ => true
    | .status endpoint cluster attr _ => sub.coveredConcretely (endpoint, cluster, attr)

/-- What the reports of a subscription are read with: the flag of the request, the identity of the
session. -/
def readCtx (sub : ActiveSubscription) (fabricIndex : UInt8) (subject : Subject) : ReadCtx :=
  ⟨fabricIndex, sub.fabricFiltered, subject⟩

/-- The attribute half of a report: the changed attributes, read now. -/
def reportEntries (sub : ActiveSubscription) (n : NodeView) (fabricIndex : UInt8)
    (subject : Subject) : List ReportEntryOut :=
  let paths := sub.dirty.map AttrPathIn.concrete
  if paths.isEmpty then []
  else sub.retainReportable (n.readEntries paths (sub.readCtx fabricIndex subject))

/-! ## What is noted -/

variable {sub : ActiveSubscription} {changed : List AttrPath} {path : AttrPath} {n : NodeView}

/-- Noting changes touches nothing else. -/
theorem noteChanged_eq (sub : ActiveSubscription) (changed : List AttrPath) :
    sub.noteChanged changed = { sub with dirty := (sub.noteChanged changed).dirty } := by
  induction changed generalizing sub with
  | nil => rfl
  | cons path changed ih =>
    rw [noteChanged, List.foldl_cons]
    split
    · exact ih _
    · exact ih _

/-- What is waiting to be reported was waiting before, or changed and is covered. -/
theorem mem_noteChanged :
    path ∈ (sub.noteChanged changed).dirty ↔
      path ∈ sub.dirty ∨ path ∈ changed ∧ sub.covers path = true := by
  induction changed generalizing sub with
  | nil => simp [noteChanged]
  | cons path' changed ih =>
    rw [noteChanged, List.foldl_cons]
    split
    · next hc =>
      rw [Bool.and_eq_true] at hc
      have hcov : ∀ p, covers { sub with dirty := sub.dirty ++ [path'] } p = sub.covers p :=
        fun _ => rfl
      refine (@ih { sub with dirty := sub.dirty ++ [path'] }).trans ?_
      rw [hcov, List.mem_append, List.mem_singleton, List.mem_cons]
      constructor
      · rintro ((h | rfl) | h)
        · exact .inl h
        · exact .inr ⟨.inl rfl, hc.1⟩
        · exact .inr ⟨.inr h.1, h.2⟩
      · rintro (h | ⟨rfl | h, hp⟩)
        · exact .inl (.inl h)
        · exact .inl (.inr rfl)
        · exact .inr ⟨h, hp⟩
    · next hc =>
      refine ih.trans ?_
      rw [List.mem_cons]
      constructor
      · rintro (h | ⟨h, hp⟩)
        · exact .inl h
        · exact .inr ⟨.inr h, hp⟩
      · rintro (h | ⟨rfl | h, hp⟩)
        · exact .inl h
        · simp only [hp, Bool.true_and, Bool.not_eq_true', Bool.not_eq_false,
            List.contains_iff_mem] at hc
          exact .inl hc
        · exact .inr ⟨h, hp⟩

/-- Over several lists of changes. -/
theorem mem_foldl_noteChanged {changes : List (List AttrPath)} :
    path ∈ (changes.foldl noteChanged sub).dirty ↔
      path ∈ sub.dirty ∨ path ∈ changes.flatten ∧ sub.covers path = true := by
  induction changes generalizing sub with
  | nil => simp
  | cons changed changes ih =>
    have hcov : (sub.noteChanged changed).covers path = sub.covers path := by
      rw [noteChanged_eq]
      rfl
    rw [List.foldl_cons, ih, mem_noteChanged, hcov, List.flatten_cons, List.mem_append, or_assoc,
      ← or_and_right]

theorem foldl_noteChanged_eq (sub : ActiveSubscription) (changes : List (List AttrPath)) :
    changes.foldl noteChanged sub =
      { sub with dirty := (changes.foldl noteChanged sub).dirty } := by
  induction changes generalizing sub with
  | nil => rfl
  | cons changed changes ih =>
    rw [List.foldl_cons, ih, noteChanged_eq]

/-! ## What is reported -/

/-- A cluster of the node lists the attribute. -/
def Lists (n : NodeView) (path : AttrPath) : Prop := ∃ clusters h, n.Serves path clusters h

theorem coveredConcretely_iff :
    sub.coveredConcretely path = true ↔
      ∃ p ∈ sub.paths, pathMatches p path = true ∧ p.isConcrete = true := by
  simp only [coveredConcretely, List.any_eq_true, Bool.and_eq_true, AttrPathIn.isConcrete]
  constructor
  · rintro ⟨p, hp, hc, hm⟩
    exact ⟨p, hp, hm, hc⟩
  · rintro ⟨p, hp, hm, hc⟩
    exact ⟨p, hp, hc, hm⟩

theorem mem_retainReportable {entries : List ReportEntryOut} {entry : ReportEntryOut} :
    entry ∈ sub.retainReportable entries ↔
      entry ∈ entries ∧ (entry.isData = true ∨ sub.coveredConcretely entry.path = true) := by
  rw [retainReportable, List.mem_filter]
  cases entry <;> simp [ReportEntryOut.isData, ReportEntryOut.path]

theorem pathMatches_concrete {path' : AttrPath} :
    pathMatches (.concrete path) path' = true ↔ path = path' := by
  obtain ⟨e, c, a⟩ := path
  obtain ⟨e', c', a'⟩ := path'
  simp [pathMatches, AttrPathIn.concrete, and_assoc]

/-- An entry that is read back carries the path it was read by. -/
theorem path_of_mem_concrete {entry : ReportEntryOut} {ctx : ReadCtx} (hl : Lists n path)
    (hm : entry ∈ n.expandEndpoint (.concrete path) ctx) : entry.path = path := by
  obtain ⟨clusters, h, hs⟩ := hl
  have hf : n.registry.endpoints.find? (·.1 == path.1) = some (path.1, clusters) :=
    (OwnedRows.find?_key_eq_some n.registry.endpoints_nodup).2 ⟨hs.endpoint, rfl⟩
  have hc : clusters.find? (·.clusterId == path.2.1) = some h :=
    (OwnedRows.find?_key_eq_some (n.registry.clusters_nodup _ hs.endpoint)).2
      ⟨hs.cluster, hs.clusterId⟩
  simp only [NodeView.expandEndpoint, AttrPathIn.concrete, hf, NodeView.expandCluster, hc] at hm
  obtain ⟨attr, hattr, rfl, -⟩ := NodeView.mem_expandAttribute.1 hm
  rw [NodeView.answer_path, hs.clusterId, List.mem_singleton.1 hattr]

variable {changes : List (List AttrPath)} {fabricIndex : UInt8} {subject : Subject}
  {entry : ReportEntryOut}

/-- A report carries the answers at the changed attributes: values, and the statuses of those that a
requested path names. -/
theorem mem_reportEntries (hl : ∀ path ∈ sub.dirty, Lists n path) :
    entry ∈ sub.reportEntries n fabricIndex subject ↔
      ∃ path ∈ sub.dirty, ∃ clusters h, n.Serves path clusters h ∧
        entry = n.answer ⟨path.1, clusters, sub.readCtx fabricIndex subject⟩ h path.2.2 ∧
        (entry.isData = true ∨ sub.coveredConcretely path = true) := by
  have hempty : (sub.dirty.map AttrPathIn.concrete).isEmpty = true → sub.dirty = [] := by simp
  unfold reportEntries
  dsimp only
  split
  · next he => simp [hempty he]
  · rw [mem_retainReportable]
    constructor
    · rintro ⟨hm, hd⟩
      rw [NodeView.readEntries, List.mem_flatMap] at hm
      obtain ⟨p, hp, hm⟩ := hm
      obtain ⟨path, hpath, rfl⟩ := List.mem_map.1 hp
      have hentry := path_of_mem_concrete (hl path hpath) hm
      obtain ⟨clusters, h, hs⟩ := hl path hpath
      rw [hentry] at hd
      exact ⟨path, hpath, clusters, h, hs,
        ((NodeView.mem_expandEndpoint_of_serves hs hentry).1 hm).2.1, hd⟩
    · rintro ⟨path, hpath, clusters, h, hs, rfl, hd⟩
      have hentry : (n.answer ⟨path.1, clusters, sub.readCtx fabricIndex subject⟩ h
          path.2.2).path = path := by
        rw [NodeView.answer_path, hs.clusterId]
      refine ⟨(NodeView.mem_readEntries_of_serves hs hentry).2 ⟨rfl, .inr ?_⟩, ?_⟩
      · exact ⟨.concrete path, List.mem_map_of_mem hpath, pathMatches_concrete.2 rfl, rfl⟩
      · rw [hentry]
        exact hd

/-- **Reports and re-reading.** After any changes of attributes that their clusters list, a report
carries exactly what reading the requested paths gives at the changed attributes that are covered; a
status only where a requested path names the attribute, and every value that can be read. -/
theorem report_agrees (n : NodeView) (sub : ActiveSubscription) (changes : List (List AttrPath))
    (fabricIndex : UInt8) (subject : Subject) (hnew : sub.dirty = [])
    (hlisted : ∀ changed ∈ changes, ∀ path ∈ changed, Lists n path) :
    let noted := changes.foldl noteChanged sub
    let ctx := sub.readCtx fabricIndex subject
    let report := noted.reportEntries n fabricIndex subject
    (∀ entry, entry ∈ report ↔ entry ∈ n.readEntries sub.paths ctx ∧ entry.path ∈ noted.dirty) ∧
      (∀ entry ∈ report, entry.isData = false → sub.coveredConcretely entry.path = true) ∧
      ∀ path ∈ noted.dirty, ∀ clusters h, n.Serves path clusters h →
        (n.answer ⟨path.1, clusters, ctx⟩ h path.2.2).isData = true →
          n.answer ⟨path.1, clusters, ctx⟩ h path.2.2 ∈ report := by
  intro noted ctx report
  have hdirty : ∀ path, path ∈ noted.dirty ↔
      path ∈ changes.flatten ∧ sub.covers path = true := fun path => by
    rw [mem_foldl_noteChanged, hnew]
    simp
  have hl : ∀ path ∈ noted.dirty, Lists n path := fun path hpath => by
    obtain ⟨changed, hchanged, hmem⟩ := List.mem_flatten.1 ((hdirty path).1 hpath).1
    exact hlisted changed hchanged path hmem
  have hnoted : noted = { sub with dirty := noted.dirty } := foldl_noteChanged_eq sub changes
  have hctx : noted.readCtx fabricIndex subject = ctx := by
    rw [hnoted]
    rfl
  have hconcrete : ∀ path, noted.coveredConcretely path = sub.coveredConcretely path :=
    fun path => by
      rw [hnoted]
      rfl
  have hreport : ∀ entry, entry ∈ report ↔ _ := fun entry =>
    @mem_reportEntries noted _ fabricIndex subject _ hl
  simp only [hctx, hconcrete] at hreport
  refine ⟨fun entry => ?_, fun entry hm hd => ?_, fun path hpath clusters h hs hd => ?_⟩
  · rw [hreport]
    constructor
    · rintro ⟨path, hpath, clusters, h, hs, rfl, hd⟩
      have hentry : (n.answer ⟨path.1, clusters, ctx⟩ h path.2.2).path = path := by
        rw [NodeView.answer_path, hs.clusterId]
      refine ⟨(NodeView.mem_readEntries_of_serves hs hentry).2 ⟨rfl, ?_⟩, hentry.symm ▸ hpath⟩
      obtain hd | hc := hd
      · exact .inl ⟨hd, List.any_eq_true.1 ((hdirty path).1 hpath).2⟩
      · exact .inr (coveredConcretely_iff.1 hc)
    · rintro ⟨hm, hpath⟩
      obtain ⟨clusters, h, hs⟩ := hl _ hpath
      obtain ⟨heq, hd⟩ := (NodeView.mem_readEntries_of_serves hs rfl).1 hm
      refine ⟨entry.path, hpath, clusters, h, hs, heq, ?_⟩
      obtain ⟨hd, -⟩ | hc := hd
      · exact .inl hd
      · exact .inr (coveredConcretely_iff.2 hc)
  · obtain ⟨path, -, clusters, h, hs, rfl, hc⟩ := (hreport entry).1 hm
    rw [NodeView.answer_path, hs.clusterId]
    exact hc.resolve_left fun h => by simp [hd] at h
  · exact (hreport _).2 ⟨path, hpath, clusters, h, hs, rfl, .inl hd⟩

/-! ### A lamp -/

/-- The state of a lamp that is on, as a cluster. -/
def onOffHandler : ClusterHandler where
  clusterId := clusterOnOff
  attributes := [0]
  read := fun attr _ => if attr = 0 then some (TlvValue.bool true) else none
  acceptedCommands := [0, 1, 2]
  generatedCommands := []
  featureMap := 0
  revision := 6
  readPrivilege := fun _ => privilegeView
  events := []
  eventPrivilege := fun _ => privilegeView

/-- A node with this cluster alone. -/
def lampView : NodeView := ⟨⟨[(2, [onOffHandler])], by decide, by decide⟩, none, fun _ _ => 1⟩

/-- A subscription to everything. -/
def subscribeAll : ActiveSubscription :=
  ⟨1, [⟨none, none, none⟩], true, 0, 60000, 0, [], [], 0, false⟩

/-- The lamp that was switched is reported. -/
theorem report_agrees_lamp :
    .data ⟨2, clusterOnOff, 0, 1, TlvValue.bool true⟩ ∈
      ([[(2, clusterOnOff, 0)]].foldl noteChanged subscribeAll).reportEntries lampView 0
        .default := by
  have hs : lampView.Serves (2, clusterOnOff, 0) [onOffHandler] onOffHandler :=
    ⟨List.mem_singleton_self _, List.mem_singleton_self _, rfl, List.mem_singleton_self _⟩
  have hlisted : ∀ changed ∈ [[((2, clusterOnOff, 0) : AttrPath)]], ∀ path ∈ changed,
      Lists lampView path := by
    simp only [List.mem_singleton, forall_eq]
    exact ⟨_, _, hs⟩
  exact (report_agrees lampView subscribeAll [[(2, clusterOnOff, 0)]] 0 .default rfl
    hlisted).2.2 (2, clusterOnOff, 0) (by decide) _ _ hs (by decide)

end ActiveSubscription

end MatStack
