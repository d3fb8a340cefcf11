import Mathlib.Data.List.Nodup
import MatStack.Controller.Kvs.Ini
import MatStack.Lib.Machine

/-!
# Transactions

A transaction is a map from keys to values. On a file with at most one line for a key, what was set
last is read back, from the transaction and from the file it leaves, and the lines of other keys,
the comments and the other sections stay as they are. An empty value is read back as none. The keys
are those that a line can hold: no `=`, no line feed, no white space at their ends and no leading
`[`.
-/

namespace MatStack

open Text Lines Machine

/-- The key of a line. -/
def keyOf (line : Line) : Option Line := (splitOnce line).map fun kv => trim kv.1

theorem isLineOf_iff {key line : Line} : isLineOf key line = true ↔ keyOf line = some key := by
  unfold isLineOf keyOf
  cases splitOnce line with
  | none => simp
  | some kv => simp

theorem isLineOf_eq_false {key line : Line} : isLineOf key line = false ↔ keyOf line ≠ some key := by
  rw [← Bool.not_eq_true, isLineOf_iff]

namespace KvsTxn

/-! ## The cut -/

/-- The lines are cut at the header and at the first line behind it that begins a section. -/
structure Cut (t : KvsTxn) : Prop where
  header : ∃ pre h, t.before = pre ++ [h] ∧ trim h = defaultHeader ∧
    ∀ l ∈ pre, trim l ≠ defaultHeader
  body : ∀ l ∈ t.body, beginsSection l = false
  after : ∀ l ∈ t.after.head?, beginsSection l = true
  noFeed : ∀ l ∈ t.lines, '\n' ∉ l

theorem cutAtHeader_spec {ls before rest : List Line} (h : cutAtHeader ls = some (before, rest)) :
    ls = before ++ rest ∧ ∃ pre h, before = pre ++ [h] ∧ trim h = defaultHeader ∧
      ∀ l ∈ pre, trim l ≠ defaultHeader := by
  induction ls generalizing before with
  | nil => cases h
  | cons line ls ih =>
    rw [cutAtHeader] at h
    split at h
    · next hline =>
      cases h
      exact ⟨rfl, [], line, rfl, hline, fun l hl => absurd hl List.not_mem_nil⟩
    · next hline =>
      obtain ⟨cut, hcut, he⟩ := Option.map_eq_some_iff.1 h
      cases he
      obtain ⟨hls, pre, hd, hbefore, hhd, hpre⟩ := ih hcut
      refine ⟨by rw [hls]; rfl, line :: pre, hd, by rw [hbefore]; rfl, hhd, fun l hl => ?_⟩
      obtain rfl | hl := List.mem_cons.1 hl
      · exact hline
      · exact hpre l hl

theorem cutAtHeader_eq {pre rest : List Line} {h : Line} (hh : trim h = defaultHeader)
    (hpre : ∀ l ∈ pre, trim l ≠ defaultHeader) :
    cutAtHeader (pre ++ [h] ++ rest) = some (pre ++ [h], rest) := by
  induction pre with
  | nil =>
    rw [List.nil_append, List.singleton_append, cutAtHeader, if_pos hh]
  | cons l pre ih =>
    rw [List.cons_append, List.cons_append, cutAtHeader, if_neg (hpre l (List.mem_cons_self ..)),
      ih fun l' hl' => hpre l' (List.mem_cons_of_mem _ hl')]
    rfl

theorem takeWhile_append_of_head? {α : Type} {p : α → Bool} {as bs : List α}
    (has : ∀ a ∈ as, p a = true) (hbs : ∀ b ∈ bs.head?, p b = false) :
    (as ++ bs).takeWhile p = as ∧ (as ++ bs).dropWhile p = bs := by
  rw [List.takeWhile_append_of_pos has, List.dropWhile_append_of_pos has]
  cases bs with
  | nil => simp
  | cons b bs =>
    have hb := hbs b rfl
    simp [hb]

/-- The cut is determined by its lines. -/
theorem Cut.cutLines {t : KvsTxn} (h : t.Cut) : cutLines t.trailingNewline t.lines = .ok t := by
  obtain ⟨pre, hd, hbefore, hhd, hpre⟩ := h.header
  have hrest := @takeWhile_append_of_head? _ (!beginsSection ·) t.body t.after
    (fun l hl => by simp [h.body l hl]) (fun l hl => by simp [h.after l hl])
  rw [KvsTxn.cutLines, lines, hbefore, List.append_assoc, cutAtHeader_eq hhd hpre]
  dsimp only
  rw [hrest.1, hrest.2, ← hbefore]

theorem Cut.of_cutLines {t : KvsTxn} {tr : Bool} {ls : List Line}
    (h : KvsTxn.cutLines tr ls = .ok t)
    (hls : ∀ l ∈ ls, '\n' ∉ l) : t.Cut ∧ t.lines = ls ∧ t.trailingNewline = tr := by
  unfold KvsTxn.cutLines at h
  split at h
  · cases h
  · next before rest hcut =>
    cases h
    obtain ⟨hls', hheader⟩ := cutAtHeader_spec hcut
    have hlines : before ++ rest.takeWhile (!beginsSection ·) ++ rest.dropWhile (!beginsSection ·) =
        ls := by rw [List.append_assoc, List.takeWhile_append_dropWhile, hls']
    refine ⟨⟨hheader, fun l hl => ?_, fun l hl => ?_, ?_⟩, hlines, rfl⟩
    · simpa using List.mem_takeWhile_imp hl
    · have hhead := List.head?_dropWhile_not (!beginsSection ·) rest
      rw [hl] at hhead
      simpa using hhead
    · intro l hl
      exact hls l (hlines ▸ hl)

/-- The text ends with a line feed: its lines are those before it. -/
theorem openText_feed (s : List Char) : openText (s ++ ['\n']) = cutLines true (s.splitOn '\n') := by
  have hsplit : (s ++ ['\n']).splitOn '\n' = s.splitOn '\n' ++ [[]] :=
    List.splitOn_append_cons_self s []
  unfold openText
  dsimp only
  rw [hsplit, List.getLast?_concat, List.getLast?_concat, List.dropLast_concat]
  rfl

/-- The text does not end with a line feed. -/
theorem openText_noFeed {text : List Char} (h : text.getLast? ≠ some '\n') :
    openText text = cutLines false (text.splitOn '\n') := by
  have hf : (text.getLast? == some '\n') = false := by simpa using h
  unfold openText
  dsimp only
  rw [hf]
  rfl

/-- A transaction holds the lines of the text. -/
theorem openText_spec {text : List Char} {t : KvsTxn} (h : openText text = .ok t) :
    t.Cut ∧ text = unlines t.trailingNewline t.lines := by
  by_cases htr : text.getLast? = some '\n'
  · obtain ⟨s, rfl⟩ := List.getLast?_eq_some_iff.1 htr
    rw [openText_feed] at h
    obtain ⟨hcut, hlines, htrailing⟩ := Cut.of_cutLines h fun l hl => not_mem_of_mem_splitOn hl
    rw [hlines, htrailing, unlines_eq (List.splitOn_ne_nil _ _), List.intercalate_splitOn]
    exact ⟨hcut, rfl⟩
  · rw [openText_noFeed htr] at h
    obtain ⟨hcut, hlines, htrailing⟩ := Cut.of_cutLines h fun l hl => not_mem_of_mem_splitOn hl
    rw [hlines, htrailing, unlines_eq (List.splitOn_ne_nil _ _), List.intercalate_splitOn]
    exact ⟨hcut, (List.append_nil _).symm⟩

theorem lines_ne_nil {t : KvsTxn} (h : t.Cut) : t.lines ≠ [] := by
  obtain ⟨pre, hd, hbefore, -⟩ := h.header
  rw [lines, hbefore]
  simp

theorem Cut.commit {t : KvsTxn} (h : t.Cut) : t.commit = unlines t.trailingNewline t.lines := by
  have hne := lines_ne_nil h
  have hempty : t.lines.isEmpty = false := by simpa using hne
  rw [KvsTxn.commit, unlines_eq hne, hempty]
  simp

/-- The file is opened again as it was left, unless its last line is empty and has no line feed. -/
theorem Cut.openText_commit_eq {t : KvsTxn} (h : t.Cut)
    (hlast : t.trailingNewline = true ∨ t.lines.getLast? ≠ some []) :
    openText t.commit = .ok t := by
  have hne := lines_ne_nil h
  cases htr : t.trailingNewline with
  | true =>
    rw [h.commit, unlines_eq hne, htr, if_pos rfl, openText_feed,
      List.splitOn_intercalate _ h.noFeed hne]
    exact htr ▸ h.cutLines
  | false =>
    rw [htr] at hlast
    obtain ⟨ls, l, hls⟩ : ∃ ls l, t.lines = ls ++ [l] :=
      ⟨_, _, (List.dropLast_append_getLast hne).symm⟩
    have hl : l ≠ [] := by
      rw [hls, List.getLast?_concat] at hlast
      exact fun he => hlast.resolve_left Bool.false_ne_true (congrArg some he)
    have hfeed : '\n' ∉ l := h.noFeed l (by rw [hls]; simp)
    have hend : t.commit.getLast? ≠ some '\n' := by
      obtain ⟨s, hs⟩ := @suffix_unlines l ls
      rw [h.commit, htr, hls, ← hs, List.getLast?_append_of_ne_nil _ hl]
      exact fun hn => hfeed (List.mem_of_getLast? hn)
    rw [openText_noFeed hend, h.commit, unlines_eq hne, htr, if_neg Bool.false_ne_true,
      List.append_nil, List.splitOn_intercalate _ h.noFeed hne]
    exact htr ▸ h.cutLines

/-- The file a transaction leaves is opened again with the same lines, up to an empty one. -/
theorem Cut.reopen {t : KvsTxn} (h : t.Cut) :
    ∃ t', openText t.commit = .ok t' ∧ t'.Cut ∧ t'.before = t.before ∧
      ∀ p, p [] = false → t'.body.filter p = t.body.filter p := by
  by_cases hlast : t.trailingNewline = true ∨ t.lines.getLast? ≠ some []
  · exact ⟨t, h.openText_commit_eq hlast, h, rfl, fun _ _ => rfl⟩
  -- the last line is empty: the line feed before it ends the text
  obtain ⟨htr, hlast⟩ := not_or.1 hlast
  rw [Bool.not_eq_true] at htr
  rw [not_not] at hlast
  obtain ⟨pre, hd, hbefore, hhd, hpre⟩ := h.header
  have hnil : trim [] ≠ defaultHeader := by decide
  obtain ⟨t', hcut, hlines, htr', hsame, hfilter⟩ : ∃ t' : KvsTxn, t'.Cut ∧
      t.lines = t'.lines ++ [[]] ∧ t'.trailingNewline = true ∧ t'.before = t.before ∧
      ∀ p, p [] = false → t'.body.filter p = t.body.filter p := by
    by_cases hafter : t.after = []
    · by_cases hbody : t.body = []
      · rw [lines, hafter, hbody, hbefore, List.append_nil, List.append_nil,
          List.getLast?_concat] at hlast
        exact absurd (Option.some.inj hlast ▸ hhd) hnil
      · rw [lines, hafter, List.append_nil, List.getLast?_append_of_ne_nil _ hbody] at hlast
        obtain ⟨body, hb⟩ := List.getLast?_eq_some_iff.1 hlast
        refine ⟨⟨t.before, body, t.after, true⟩, ⟨h.header, fun l hl => ?_, h.after, fun l hl => ?_⟩,
          ?_, rfl, rfl, fun p hp => ?_⟩
        · exact h.body l (by rw [hb]; exact List.mem_append_left _ hl)
        · refine h.noFeed l ?_
          simp only [lines, hb, List.mem_append] at hl ⊢
          tauto
        · rw [lines, lines, hb, hafter]
          simp
        · rw [hb, List.filter_append, List.filter_cons_of_neg (by rw [hp]; exact Bool.false_ne_true),
            List.filter_nil, List.append_nil]
    · rw [lines, List.getLast?_append_of_ne_nil _ hafter] at hlast
      obtain ⟨after, ha⟩ := List.getLast?_eq_some_iff.1 hlast
      refine ⟨⟨t.before, t.body, after, true⟩, ⟨h.header, h.body, fun l hl => ?_, fun l hl => ?_⟩, ?_,
        rfl, rfl, fun _ _ => rfl⟩
      · exact h.after l (by rw [ha, List.head?_append, Option.mem_def.1 hl]; rfl)
      · refine h.noFeed l ?_
        simp only [lines, ha, List.mem_append] at hl ⊢
        tauto
      · rw [lines, lines, ha, ← List.append_assoc]
  have hcommit : t.commit = t'.commit := by
    rw [h.commit, hcut.commit, htr, htr', hlines, unlines_concat_nil (lines_ne_nil hcut)]
  exact ⟨t', hcommit ▸ hcut.openText_commit_eq (.inl htr'), hcut, hsame, hfilter⟩

/-- Equal lines of a key, equal first line. -/
theorem find_of_filter {t t' : KvsTxn} {k : Line}
    (h : t'.body.filter (isLineOf k) = t.body.filter (isLineOf k)) : t'.find k = t.find k := by
  rw [find, find, ← List.head?_filter, ← List.head?_filter, h]

/-- The file a transaction leaves is opened again with the same values. -/
theorem Cut.openText_commit {t : KvsTxn} (h : t.Cut) :
    ∃ t', openText t.commit = .ok t' ∧ t'.Cut ∧ ∀ key, t'.find key = t.find key := by
  obtain ⟨t', hopen, hcut, -, hfilter⟩ := h.reopen
  exact ⟨t', hopen, hcut, fun key => find_of_filter (hfilter _ rfl)⟩

/-- The last line of a text is not empty, unless a line feed ends it. -/
theorem trailing_of_openText {text : List Char} {t : KvsTxn} (h : openText text = .ok t) :
    t.trailingNewline = true ∨ t.lines.getLast? ≠ some [] := by
  by_cases htr : text.getLast? = some '\n'
  · obtain ⟨s, rfl⟩ := List.getLast?_eq_some_iff.1 htr
    rw [openText_feed] at h
    exact .inl (Cut.of_cutLines h fun l hl => not_mem_of_mem_splitOn hl).2.2
  · refine .inr fun hlast => htr ?_
    obtain ⟨hcut, htext⟩ := openText_spec h
    rw [openText_noFeed htr] at h
    have htrailing := (Cut.of_cutLines h fun l hl => not_mem_of_mem_splitOn hl).2.2
    obtain ⟨ls, hls⟩ := List.getLast?_eq_some_iff.1 hlast
    by_cases hnil : ls = []
    · -- the header is no empty line
      obtain ⟨pre, hd, hbefore, hhd, -⟩ := hcut.header
      have hmem : hd ∈ t.lines := by
        rw [lines, hbefore]
        simp
      rw [hls, hnil, List.nil_append, List.mem_singleton] at hmem
      rw [hmem] at hhd
      exact absurd hhd (by decide)
    · rw [htext, htrailing, hls, unlines_concat_nil hnil, unlines_eq hnil, if_pos rfl,
        List.getLast?_concat]

end KvsTxn

/-! ## Lines of a key -/

/-- A key that a line can hold. -/
structure IsKey (key : Line) : Prop where
  trimmed : trim key = key
  noEquals : '=' ∉ key
  noFeed : '\n' ∉ key
  noBracket : key.head? ≠ some '['

section
variable {B : Base64} {key : Line} {value : Bytes}

theorem splitOnce_lineOf {v : Line} (h : '=' ∉ key) :
    splitOnce (key ++ '=' :: v) = some (key, v) := by
  induction key with
  | nil => rfl
  | cons c key ih =>
    rw [List.mem_cons, not_or] at h
    rw [List.cons_append, splitOnce, if_neg (Ne.symm h.1), ih h.2]
    rfl

theorem IsKey.keyOf_lineOf (h : IsKey key) : keyOf (KvsTxn.lineOf B key value) = some key := by
  rw [keyOf, KvsTxn.lineOf, splitOnce_lineOf h.noEquals, Option.map_some, h.trimmed]

theorem trim_of_not_whitespace {s : List Char} (h : ∀ c ∈ s, isWhitespace c = false) :
    trim s = s := by
  have hdrop : s.dropWhile isWhitespace = s := by
    cases s with
    | nil => rfl
    | cons c s =>
      refine List.dropWhile_cons_of_neg ?_
      rw [h c (List.mem_cons_self ..)]
      exact Bool.false_ne_true
  rw [trim, hdrop, List.rdropWhile_eq_self_iff]
  intro hne
  rw [h _ (List.getLast_mem hne)]
  exact Bool.false_ne_true

theorem IsKey.valueOf_lineOf (h : IsKey key) :
    valueOf (KvsTxn.lineOf B key value) = B.encodeString value := by
  rw [valueOf, KvsTxn.lineOf, splitOnce_lineOf h.noEquals]
  exact trim_of_not_whitespace (B.not_whitespace value)

/-- The line of a key begins no section. -/
theorem IsKey.beginsSection_lineOf (h : IsKey key) :
    beginsSection (KvsTxn.lineOf B key value) = false := by
  unfold beginsSection KvsTxn.lineOf trimStart
  cases hkey : key with
  | nil => rfl
  | cons c key' =>
    have hc : isWhitespace c = false := by
      rw [← Bool.not_eq_true]
      intro hw
      have hlen : (trim key).length ≤ key'.length := by
        rw [trim, hkey, List.dropWhile_cons_of_pos hw]
        exact (List.rdropWhile_prefix ..).length_le.trans (List.dropWhile_suffix _).length_le
      rw [h.trimmed, hkey, List.length_cons] at hlen
      omega
    have hb := h.noBracket
    rw [hkey, List.head?_cons] at hb
    rw [List.cons_append, List.dropWhile_cons_of_neg (by rw [hc]; exact Bool.false_ne_true),
      List.head?_cons]
    simpa using hb

theorem IsKey.noFeed_lineOf (h : IsKey key) : '\n' ∉ KvsTxn.lineOf B key value := by
  unfold KvsTxn.lineOf
  rw [List.mem_append, List.mem_cons, not_or, not_or]
  refine ⟨h.noFeed, by decide, fun hm => ?_⟩
  have := B.not_whitespace value '\n' hm
  exact absurd this (by decide)

end

namespace KvsTxn

section
variable {B : Base64} {t : KvsTxn} {key : Line} {value : Bytes}

/-! ## Writing a line -/

/-- What `set` does: the first line of the key is replaced, or a line is appended. -/
theorem set_cases : (t.find key = none ∧ t.set B key value =
      { t with body := t.body ++ [lineOf B key value] }) ∨
    ∃ pre line post, t.body = pre ++ line :: post ∧ keyOf line = some key ∧
      pre.find? (isLineOf key) = none ∧
      t.set B key value = { t with body := pre ++ lineOf B key value :: post } := by
  cases hfind : t.find key with
  | none =>
    have hidx : t.body.findIdx? (isLineOf key) = none := by
      rw [List.findIdx?_eq_none_iff]
      intro l hl
      simpa using List.find?_eq_none.1 hfind l hl
    refine .inl ⟨rfl, ?_⟩
    rw [set, hidx]
  | some line =>
    obtain ⟨hline, pre, post, hbody, hpre⟩ := List.find?_eq_some_iff_append.1 hfind
    refine .inr ⟨pre, line, post, hbody, isLineOf_iff.1 hline,
      List.find?_eq_none.2 fun l hl => by simpa using hpre l hl, ?_⟩
    have hidx : t.body.findIdx? (isLineOf key) = some pre.length := by
      rw [hbody, List.findIdx?_append, List.findIdx?_eq_none_iff.2 fun l hl => by
        simpa using hpre l hl, List.findIdx?_cons, hline]
      simp
    rw [set, hidx]
    dsimp only
    rw [hbody, List.set_append_right _ _ (Nat.le_refl _), Nat.sub_self, List.set_cons_zero]

/-- What `remove` does: the first line of the key goes. -/
theorem remove_cases : (t.find key = none ∧ t.remove key = t) ∨
    ∃ pre line post, t.body = pre ++ line :: post ∧ keyOf line = some key ∧
      t.remove key = { t with body := pre ++ post } := by
  cases hfind : t.find key with
  | none =>
    refine .inl ⟨rfl, ?_⟩
    rw [remove, List.eraseP_of_forall_not (List.find?_eq_none.1 hfind)]
  | some line =>
    obtain ⟨hline, pre, post, hbody, hpre⟩ := List.find?_eq_some_iff_append.1 hfind
    refine .inr ⟨pre, line, post, hbody, isLineOf_iff.1 hline, ?_⟩
    rw [remove, hbody, List.eraseP_append_right _ fun l hl => by simpa using hpre l hl,
      List.eraseP_cons_of_pos hline]

/-- Another body between the same lines. -/
theorem Cut.of_body {body : List Line} (h : t.Cut)
    (hbody : ∀ l ∈ body, l ∈ t.body ∨ beginsSection l = false ∧ '\n' ∉ l) :
    Cut { t with body } where
  header := h.header
  body l hl := (hbody l hl).elim (h.body l) And.left
  after := h.after
  noFeed l hl := by
    simp only [lines, List.mem_append] at hl
    obtain (hl | hl) | hl := hl
    · exact h.noFeed l (by simp [lines, hl])
    · obtain hl | hl := hbody l hl
      · exact h.noFeed l (by simp [lines, hl])
      · exact hl.2
    · exact h.noFeed l (by simp [lines, hl])

theorem Cut.set (h : t.Cut) (hkey : IsKey key) : (t.set B key value).Cut := by
  obtain ⟨-, hset⟩ | ⟨pre, line, post, hbody, -, -, hset⟩ :=
    @set_cases B t key value
  · rw [hset]
    refine h.of_body fun l hl => ?_
    obtain hl | hl := List.mem_append.1 hl
    · exact .inl hl
    · rw [List.mem_singleton.1 hl]
      exact .inr ⟨hkey.beginsSection_lineOf, hkey.noFeed_lineOf⟩
  · rw [hset]
    refine h.of_body fun l hl => ?_
    rw [List.mem_append, List.mem_cons] at hl
    obtain hl | rfl | hl := hl
    · exact .inl (by simp [hbody, hl])
    · exact .inr ⟨hkey.beginsSection_lineOf, hkey.noFeed_lineOf⟩
    · exact .inl (by simp [hbody, hl])

theorem Cut.remove (h : t.Cut) : (t.remove key).Cut :=
  h.of_body fun _ hl => .inl (List.mem_of_mem_eraseP hl)

/-- The section has at most one line for a key. -/
def Unique (t : KvsTxn) : Prop := (t.body.filterMap keyOf).Nodup

theorem find_eq_none : t.find key = none ↔ key ∉ t.body.filterMap keyOf := by
  rw [find, List.find?_eq_none, List.mem_filterMap]
  simp only [isLineOf_iff]
  push Not
  rfl

theorem Unique.set (h : t.Unique) (hkey : IsKey key) : (t.set B key value).Unique := by
  unfold Unique at h ⊢
  obtain ⟨hnone, hset⟩ | ⟨pre, line, post, hbody, hline, -, hset⟩ :=
    @set_cases B t key value
  · rw [hset]
    dsimp only
    rw [List.filterMap_append, List.filterMap_cons_some hkey.keyOf_lineOf, List.filterMap_nil,
      ← List.concat_eq_append, List.nodup_concat]
    exact ⟨find_eq_none.1 hnone, h⟩
  · rw [hbody, List.filterMap_append, List.filterMap_cons_some hline] at h
    rw [hset]
    dsimp only
    rwa [List.filterMap_append, List.filterMap_cons_some hkey.keyOf_lineOf]

theorem Unique.remove (h : t.Unique) : (t.remove key).Unique :=
  (((List.eraseP_sublist).filterMap keyOf).nodup h : _)

/-- The lines of other keys stay, in their order. -/
theorem filter_body_set (hkey : IsKey key) {p : Line → Bool}
    (hp : ∀ l, keyOf l = some key → p l = false) :
    (t.set B key value).body.filter p = t.body.filter p := by
  have hnew : p (lineOf B key value) = false := hp _ hkey.keyOf_lineOf
  obtain ⟨-, hset⟩ | ⟨pre, line, post, hbody, hline, -, hset⟩ :=
    @set_cases B t key value
  · rw [hset]
    simp [hnew]
  · rw [hset, hbody]
    simp [hnew, hp line hline]

theorem filter_body_remove {p : Line → Bool} (hp : ∀ l, keyOf l = some key → p l = false) :
    (t.remove key).body.filter p = t.body.filter p := by
  obtain ⟨-, hremove⟩ | ⟨pre, line, post, hbody, hline, hremove⟩ := @remove_cases t key
  · rw [hremove]
  · rw [hremove, hbody]
    simp [hp line hline]

/-! ## Reading back -/

/-- `set` does not change another key. -/
theorem find_set_of_ne {k : Line} (hkey : IsKey key) (h : k ≠ key) :
    (t.set B key value).find k = t.find k :=
  find_of_filter (filter_body_set hkey fun _ hl => isLineOf_eq_false.2 (by
    rw [hl]
    exact fun he => h (Option.some.inj he).symm))

/-- `remove` does not change another key. -/
theorem find_remove_of_ne {k : Line} (h : k ≠ key) : (t.remove key).find k = t.find k :=
  find_of_filter (filter_body_remove fun _ hl => isLineOf_eq_false.2 (by
    rw [hl]
    exact fun he => h (Option.some.inj he).symm))

/-- What was set is found. -/
theorem find_set_self (hkey : IsKey key) :
    (t.set B key value).find key = some (lineOf B key value) := by
  have hself : isLineOf key (lineOf B key value) = true := isLineOf_iff.2 hkey.keyOf_lineOf
  obtain ⟨hnone, hset⟩ | ⟨pre, line, post, -, -, hpre, hset⟩ :=
    @set_cases B t key value
  · rw [hset, find, List.find?_append]
    rw [find] at hnone
    rw [hnone, List.find?_cons_of_pos hself, Option.none_or]
  · rw [hset, find, List.find?_append, hpre, List.find?_cons_of_pos hself, Option.none_or]

/-- What was removed is not found. -/
theorem find_remove_self (h : t.Unique) : (t.remove key).find key = none := by
  obtain ⟨hnone, hremove⟩ | ⟨pre, line, post, hbody, hline, hremove⟩ :=
    @remove_cases t key
  · rw [hremove, hnone]
  · rw [Unique, hbody, List.filterMap_append, List.filterMap_cons_some hline,
      List.nodup_middle, List.nodup_cons] at h
    rw [hremove, find_eq_none]
    dsimp only
    rw [List.filterMap_append]
    exact h.1

/-- The value of the line `set` writes. -/
theorem get_of_find (h : t.find key = some (lineOf B key value)) (hkey : IsKey key) :
    t.get B key = .ok (if value = [] then none else some value) := by
  have hnil : B.encodeString value = [] ↔ value = [] := by
    constructor
    · intro he
      have hd := B.decode_encode value
      rw [he, ← B.encode_nil, B.decode_encode] at hd
      exact (Option.some.inj hd).symm
    · intro he
      rw [he, B.encode_nil]
  rw [get, h]
  dsimp only
  rw [hkey.valueOf_lineOf, B.decode_encode]
  by_cases hv : value = []
  · rw [if_pos (hnil.2 hv), if_pos hv]
  · rw [if_neg (mt hnil.1 hv), if_neg hv]

/-- Equal lines, equal values. -/
theorem get_congr {t' : KvsTxn} (h : t'.find key = t.find key) : t'.get B key = t.get B key := by
  rw [get, get, h]

theorem get_set_self (hkey : IsKey key) :
    (t.set B key value).get B key = .ok (if value = [] then none else some value) :=
  get_of_find (find_set_self hkey) hkey

theorem get_set_of_ne {k : Line} (hkey : IsKey key) (h : k ≠ key) :
    (t.set B key value).get B k = t.get B k :=
  get_congr (find_set_of_ne hkey h)

theorem get_remove_self (h : t.Unique) : (t.remove key).get B key = .ok none := by
  rw [get, find_remove_self h]

theorem get_remove_of_ne {k : Line} (h : k ≠ key) : (t.remove key).get B k = t.get B k :=
  get_congr (find_remove_of_ne h)

end

end KvsTxn

/-! ## Transactions of many steps -/

/-- A step of a transaction. -/
inductive KvsOp where
  | set (key : Line) (value : Bytes)
  | remove (key : Line)
deriving DecidableEq

namespace KvsOp

def key : KvsOp → Line
  | set key _ | remove key => key

/-- What is read back after the step. -/
def value : KvsOp → Option Bytes
  | set _ value => if value = [] then none else some value
  | remove _ => none

end KvsOp

/-- What the steps leave to be read of a key; none when they do not touch it. -/
def written (key : Line) : List KvsOp → Option (Option Bytes)
  | [] => none
  | op :: ops => (written key ops).or (if op.key = key then some op.value else none)

/-- The line is of no key that the steps touch. -/
def untouched (ops : List KvsOp) (line : Line) : Bool := ops.all fun op => !isLineOf op.key line

namespace KvsTxn

/-- One step. -/
def apply (B : Base64) (t : KvsTxn) : KvsOp → KvsTxn
  | .set key value => t.set B key value
  | .remove key => t.remove key

section
variable {B : Base64} {t : KvsTxn} {op : KvsOp}

theorem Cut.apply (h : t.Cut) (hkey : IsKey op.key) : (t.apply B op).Cut := by
  cases op with
  | set key value => exact h.set hkey
  | remove key => exact h.remove

theorem Unique.apply (h : t.Unique) (hkey : IsKey op.key) : (t.apply B op).Unique := by
  cases op with
  | set key value => exact h.set hkey
  | remove key => exact h.remove

theorem get_apply (h : t.Unique) (hkey : IsKey op.key) (key : Line) :
    (t.apply B op).get B key = if op.key = key then .ok op.value else t.get B key := by
  by_cases hk : op.key = key
  · subst hk
    rw [if_pos rfl]
    cases op with
    | set key value => exact get_set_self hkey
    | remove key => exact get_remove_self h
  · rw [if_neg hk]
    cases op with
    | set key value => exact get_set_of_ne hkey (Ne.symm hk)
    | remove key => exact get_remove_of_ne (Ne.symm hk)

theorem filter_body_apply (hkey : IsKey op.key) {p : Line → Bool}
    (hp : ∀ l, keyOf l = some op.key → p l = false) :
    (t.apply B op).body.filter p = t.body.filter p := by
  cases op with
  | set key value => exact filter_body_set hkey hp
  | remove key => exact filter_body_remove hp

/-- A step keeps the lines around the section. -/
theorem frame_apply : (t.apply B op).before = t.before ∧ (t.apply B op).after = t.after ∧
    (t.apply B op).trailingNewline = t.trailingNewline := by
  cases op with
  | set key value =>
    rw [apply, set]
    split <;> exact ⟨rfl, rfl, rfl⟩
  | remove key => exact ⟨rfl, rfl, rfl⟩

/-- **Many steps.** The section stays cut and keeps one line for a key, what was written last is
read back, and the rest of the file stays. -/
theorem run_apply {ops : List KvsOp} (hcut : t.Cut) (huniq : t.Unique)
    (hkeys : ∀ op ∈ ops, IsKey op.key) :
    (run (apply B) t ops).Cut ∧ (run (apply B) t ops).Unique ∧
      (∀ key, (run (apply B) t ops).get B key =
        match written key ops with
        | none => t.get B key
        | some v => .ok v) ∧
      ((run (apply B) t ops).before = t.before ∧ (run (apply B) t ops).after = t.after ∧
        (run (apply B) t ops).trailingNewline = t.trailingNewline) ∧
      (run (apply B) t ops).body.filter (untouched ops) = t.body.filter (untouched ops) := by
  induction ops generalizing t with
  | nil => exact ⟨hcut, huniq, fun _ => rfl, ⟨rfl, rfl, rfl⟩, rfl⟩
  | cons op ops ih =>
    have hkey := hkeys op (List.mem_cons_self ..)
    obtain ⟨hcut', huniq', hget, hframe, hfilter⟩ :=
      ih (hcut.apply (B := B) hkey) (huniq.apply hkey) fun o ho =>
        hkeys o (List.mem_cons_of_mem _ ho)
    obtain ⟨hbefore, hafter, htr⟩ := @frame_apply B t op
    rw [run_cons]
    refine ⟨hcut', huniq', fun key => ?_, ?_, ?_⟩
    · rw [hget key, written, get_apply huniq hkey]
      cases written key ops with
      | some v => rfl
      | none =>
        rw [Option.none_or]
        by_cases hk : op.key = key
        · rw [if_pos hk, if_pos hk]
        · rw [if_neg hk, if_neg hk]
    · rw [← hbefore, ← hafter, ← htr]
      exact hframe
    · have hsplit : ∀ body : List Line, body.filter (untouched (op :: ops)) =
          (body.filter (untouched ops)).filter fun l => !isLineOf op.key l := by
        intro body
        rw [List.filter_filter]
        exact List.filter_congr fun l _ => List.all_cons
      rw [hsplit, hsplit, hfilter, List.filter_filter, List.filter_filter]
      refine filter_body_apply hkey fun l hl => ?_
      rw [isLineOf_iff.2 hl]
      rfl

end

/-- **A transaction is a map over the file.** On a file with at most one line for a key in the
section, and for any steps on keys that a line can hold, the file that is left is opened again and
has for each key what was written last, none for an empty value, and for the other keys what it
had. The lines of no touched key, and all lines around the section, stay as they are, and without
steps the text is the same. -/
theorem run_commit (B : Base64) {text : List Char} {t : KvsTxn} (hopen : openText text = .ok t)
    (huniq : t.Unique) (ops : List KvsOp) (hkeys : ∀ op ∈ ops, IsKey op.key) :
    (∃ t', openText (run (apply B) t ops).commit = .ok t' ∧
      ∀ key, t'.get B key =
        match written key ops with
        | none => t.get B key
        | some v => .ok v) ∧
    text = unlines t.trailingNewline (t.before ++ t.body ++ t.after) ∧
    (run (apply B) t ops).commit =
      unlines t.trailingNewline (t.before ++ (run (apply B) t ops).body ++ t.after) ∧
    (run (apply B) t ops).body.filter (untouched ops) = t.body.filter (untouched ops) ∧
    (ops = [] → (run (apply B) t ops).commit = text) := by
  obtain ⟨hcut, htext⟩ := openText_spec hopen
  obtain ⟨hcut', -, hget, ⟨hbefore, hafter, htr⟩, hfilter⟩ := run_apply (B := B) hcut huniq hkeys
  obtain ⟨t', hreopen, -, hfind⟩ := hcut'.openText_commit
  have hcommit : (run (apply B) t ops).commit =
      unlines t.trailingNewline (t.before ++ (run (apply B) t ops).body ++ t.after) := by
    rw [hcut'.commit, lines, hbefore, hafter, htr]
  refine ⟨⟨t', hreopen, fun key => ?_⟩, htext, hcommit, hfilter, fun hops => ?_⟩
  · rw [get_congr (hfind key), hget key]
  · rw [hops, run_nil, hcut.commit, htext]

/-- Setting a key of the section and removing another, beside a comment and another section. -/
theorem run_commit_sample :
    ∃ t', openText "[Default]\n; kept\ng/gdc=AQAAAA==\nf/2/g=FRg=\n[Other]\nk = v".toList = .ok t' ∧
      (run (apply .standard) t' [.set "f/2/g".toList [1, 2, 3], .remove "g/gdc".toList]).commit =
        "[Default]\n; kept\nf/2/g=AQID\n[Other]\nk = v".toList ∧
      ∃ t'', openText "[Default]\n; kept\nf/2/g=AQID\n[Other]\nk = v".toList = .ok t'' ∧
        t''.get .standard "f/2/g".toList = .ok (some [1, 2, 3]) ∧
        t''.get .standard "g/gdc".toList = .ok none := by
  have hopen : openText "[Default]\n; kept\ng/gdc=AQAAAA==\nf/2/g=FRg=\n[Other]\nk = v".toList =
      .ok ⟨["[Default]".toList], ["; kept".toList, "g/gdc=AQAAAA==".toList, "f/2/g=FRg=".toList],
        ["[Other]".toList, "k = v".toList], false⟩ := by decide +kernel
  have hkeys : ∀ op ∈ [KvsOp.set "f/2/g".toList [1, 2, 3], .remove "g/gdc".toList], IsKey op.key := by
    intro op hop
    rw [List.mem_cons, List.mem_singleton] at hop
    obtain rfl | rfl := hop
    · exact ⟨by decide, by decide, by decide, by decide⟩
    · exact ⟨by decide, by decide, by decide, by decide⟩
  obtain ⟨⟨t'', hreopen, hget⟩, -⟩ := run_commit .standard hopen (by unfold Unique; decide)
    [.set "f/2/g".toList [1, 2, 3], .remove "g/gdc".toList] hkeys
  have hcommit : (run (apply .standard) ⟨["[Default]".toList],
      ["; kept".toList, "g/gdc=AQAAAA==".toList, "f/2/g=FRg=".toList],
      ["[Other]".toList, "k = v".toList], false⟩
      [.set "f/2/g".toList [1, 2, 3], .remove "g/gdc".toList]).commit =
      "[Default]\n; kept\nf/2/g=AQID\n[Other]\nk = v".toList := by decide +kernel
  exact ⟨_, hopen, hcommit, t'', hcommit ▸ hreopen, hget "f/2/g".toList, hget "g/gdc".toList⟩

/-- A key with `=` is not found again in the file, and an empty value is read back as none. -/
theorem get_reopened_sample :
    openText "[Default]\n".toList = .ok create ∧
      (∃ t, openText (create.set .standard "a=b".toList [1]).commit = .ok t ∧
        t.get .standard "a=b".toList = .ok none) ∧
      ∃ t, openText (create.set .standard "a".toList []).commit = .ok t ∧
        t.get .standard "a".toList = .ok none := by
  refine ⟨by decide, ⟨⟨["[Default]".toList], ["a=b=AQ==".toList], [], true⟩, ?_, ?_⟩,
    ⟨⟨["[Default]".toList], ["a=".toList], [], true⟩, ?_, ?_⟩⟩
  all_goals decide +kernel

end KvsTxn

end MatStack
