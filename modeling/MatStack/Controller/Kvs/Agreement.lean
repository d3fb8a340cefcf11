import MatStack.Controller.Kvs.Transaction

/-!
# Readers and transactions on one file

The readers take a line for the header of the section when it is `[Default]` up to its line end, and
end the section at a line that starts with `[`. A transaction takes white space around the header,
and before the `[`, as well. On a file without such white space the two see the same section; where
there is some they may see different ones, and `found_iff` says for which keys that makes a
difference.
-/

namespace MatStack

open Text Lines

section
variable {line key : Line} {ls : List Line} {trailing : Bool}

/-! ## The lines a reader sees -/

theorem trim_append_whitespace {s : List Char} {c : Char} (h : isWhitespace c = true) :
    trim (s ++ [c]) = trim s := by
  unfold trim
  rw [List.dropWhile_append]
  split
  · next hs =>
    rw [List.isEmpty_iff.1 hs, List.dropWhile_cons_of_pos h]
    rfl
  · exact List.rdropWhile_concat_pos _ _ _ h

theorem splitOnce_append {c : Char} (h : c ≠ '=') :
    splitOnce (line ++ [c]) = (splitOnce line).map fun kv => (kv.1, kv.2 ++ [c]) := by
  induction line with
  | nil => simp [splitOnce, h]
  | cons d line ih =>
    rw [List.cons_append, splitOnce, splitOnce]
    split
    · rfl
    · rw [ih, Option.map_map, Option.map_map]
      rfl

/-- White space at the end of a line changes nothing. -/
theorem isLineOf_append {c : Char} (h : c ≠ '=') : isLineOf key (line ++ [c]) = isLineOf key line := by
  unfold isLineOf
  rw [splitOnce_append h]
  cases splitOnce line <;> rfl

theorem valueOf_append {c : Char} (h : c ≠ '=') (hc : isWhitespace c = true) :
    valueOf (line ++ [c]) = valueOf line := by
  unfold valueOf
  rw [splitOnce_append h]
  cases splitOnce line with
  | none => rfl
  | some kv => exact trim_append_whitespace hc

/-- The value a reader takes from a line. -/
def valueFor (key line : Line) : Option Line :=
  if isLineOf key line then some (valueOf line) else none

theorem valueFor_eq : valueFor key line = match splitOnce line with
    | none => none
    | some (k, v) => if trim k = key then some (trim v) else none := by
  unfold valueFor isLineOf valueOf
  cases splitOnce line with
  | none => rfl
  | some kv => simp only [beq_iff_eq]

theorem valueFor_stripLineEnd (h : '\n' ∉ line) :
    valueFor key (stripLineEnd (line ++ ['\n'])) = valueFor key line := by
  unfold stripLineEnd
  rw [if_pos (List.getLast?_concat ..), List.dropLast_concat]
  split
  · next hr =>
    obtain ⟨line, rfl⟩ := List.getLast?_eq_some_iff.1 hr
    rw [List.dropLast_concat, valueFor, valueFor, isLineOf_append (by decide),
      valueOf_append (by decide) (by decide)]
  · rfl

theorem stripLineEnd_of_not_mem (h : '\n' ∉ line) : stripLineEnd line = line := by
  unfold stripLineEnd
  rw [if_neg fun hl => h (List.mem_of_getLast? hl)]

theorem findSome?_valueFor :
    ls.findSome? (valueFor key) = (ls.find? (isLineOf key)).map valueOf := by
  induction ls with
  | nil => rfl
  | cons line ls ih =>
    rw [List.findSome?_cons, List.find?_cons, valueFor, ih]
    cases isLineOf key line <;> rfl

/-- A reader searches the lines of its section. -/
theorem lookup_unlines (h : ∀ l ∈ ls, '\n' ∉ l) :
    lookup (unlines trailing ls) key = (ls.find? (isLineOf key)).map valueOf := by
  have hlookup : lookup (unlines trailing ls) key =
      (splitInclusive (unlines trailing ls)).findSome? fun l => valueFor key (stripLineEnd l) := by
    unfold lookup Lines.lines
    rw [List.findSome?_map]
    exact congrArg (List.findSome? · _) (funext fun l => valueFor_eq.symm)
  rw [hlookup, ← findSome?_valueFor]
  clear hlookup
  induction ls with
  | nil => rfl
  | cons l ls ih =>
    have hl := h l (List.mem_cons_self ..)
    by_cases hls : ls = []
    · subst hls
      cases trailing with
      | true =>
        have hsplit := @splitInclusive_cons _ [] hl
        rw [unlines, if_pos rfl, hsplit, List.findSome?_cons, valueFor_stripLineEnd hl]
        rfl
      | false =>
        rw [unlines, if_neg (by decide)]
        by_cases hne : l = []
        · rw [hne]
          rfl
        · rw [splitInclusive_of_not_mem hl hne, List.findSome?_cons, stripLineEnd_of_not_mem hl]
          rfl
    · rw [unlines_cons hls, splitInclusive_cons hl, List.findSome?_cons, List.findSome?_cons,
        valueFor_stripLineEnd hl, ih fun l' hl' => h l' (List.mem_cons_of_mem _ hl')]

/-! ## The section a reader sees -/

/-- The line is the header, with nothing but its end behind it. -/
def isFlushHeader (line : Line) : Bool := trimEol line == defaultHeader

/-- The line starts with `[`. -/
def isFlushBracket (line : Line) : Bool := line.head? == some '['

/-- The lines of the section the readers see; none without a header that they take for one. -/
def readerLines : List Line → Option (List Line)
  | [] => none
  | line :: ls => if isFlushHeader line then some (ls.takeWhile (!isFlushBracket ·)) else readerLines ls

theorem trimEol_append : trimEol (line ++ ['\n']) = trimEol line :=
  List.rdropWhile_concat_pos _ _ _ (by decide)

theorem head?_trimEol : (trimEol line).head? = some '[' ↔ isFlushBracket line = true := by
  obtain ⟨rest, hrest⟩ := List.rdropWhile_prefix (fun c => c == '\r' || c == '\n') line
  change trimEol line ++ rest = line at hrest
  rw [isFlushBracket, beq_iff_eq]
  constructor
  · intro h
    rw [← hrest, List.head?_append, h]
    rfl
  · intro h
    cases htrim : trimEol line with
    | nil =>
      have hall := (List.rdropWhile_eq_nil_iff ..).1 htrim '[' (List.mem_of_head? h)
      exact absurd hall (by decide)
    | cons c trimmed =>
      rw [← hrest, htrim] at h
      exact h

theorem isFlushBracket_append : isFlushBracket (line ++ ['\n']) = isFlushBracket line := by
  cases line <;> rfl

theorem sectionBody_cons :
    sectionBody (line :: ls) = if isFlushBracket line = true then [] else line ++ sectionBody ls := by
  rw [sectionBody]
  simp only [head?_trimEol]

/-- The body of the section is the text of its lines. -/
theorem sectionBody_unlines (h : ∀ l ∈ ls, '\n' ∉ l) :
    ∃ tr, sectionBody (splitInclusive (unlines trailing ls)) =
      unlines tr (ls.takeWhile (!isFlushBracket ·)) := by
  induction ls with
  | nil => exact ⟨trailing, rfl⟩
  | cons l ls ih =>
    have hl := h l (List.mem_cons_self ..)
    obtain ⟨tr, hbody⟩ := ih fun l' hl' => h l' (List.mem_cons_of_mem _ hl')
    by_cases hls : ls = []
    · subst hls
      cases trailing with
      | true =>
        have hsplit := @splitInclusive_cons _ [] hl
        rw [unlines, if_pos rfl, hsplit, splitInclusive, sectionBody_cons, isFlushBracket_append,
          List.takeWhile_cons]
        cases isFlushBracket l with
        | true => exact ⟨true, rfl⟩
        | false => exact ⟨true, List.append_nil _⟩
      | false =>
        rw [unlines, if_neg (by decide)]
        by_cases hne : l = []
        · rw [hne]
          exact ⟨false, rfl⟩
        · rw [splitInclusive_of_not_mem hl hne, sectionBody_cons, List.takeWhile_cons]
          cases isFlushBracket l with
          | true => exact ⟨true, rfl⟩
          | false => exact ⟨false, List.append_nil _⟩
    · rw [unlines_cons hls, splitInclusive_cons hl, sectionBody_cons, isFlushBracket_append,
        List.takeWhile_cons, hbody]
      cases isFlushBracket l with
      | true => exact ⟨true, rfl⟩
      | false =>
        refine ⟨if ls.takeWhile (!isFlushBracket ·) = [] then true else tr, ?_⟩
        rw [if_neg Bool.false_ne_true, Bool.not_false, if_pos rfl]
        by_cases hnil : ls.takeWhile (!isFlushBracket ·) = []
        · rw [hnil, if_pos rfl]
          simp [unlines]
        · rw [if_neg hnil, unlines_cons hnil, List.append_assoc]
          rfl

/-- A reader finds what the lines of its section say. -/
theorem lookup_defaultSection (h : ∀ l ∈ ls, '\n' ∉ l) :
    (defaultSection (unlines trailing ls)).map (lookup · key) =
      (readerLines ls).map fun ls => (ls.find? (isLineOf key)).map valueOf := by
  unfold defaultSection
  induction ls with
  | nil => rfl
  | cons l ls ih =>
    have hl := h l (List.mem_cons_self ..)
    have hls' : ∀ l ∈ ls, '\n' ∉ l := fun l' hl' => h l' (List.mem_cons_of_mem _ hl')
    have htake : ∀ l' ∈ ls.takeWhile (!isFlushBracket ·), '\n' ∉ l' := fun l' hl' =>
      hls' l' ((List.takeWhile_prefix _).subset hl')
    obtain ⟨tr, hbody⟩ := @sectionBody_unlines _ trailing hls'
    have hflush : isFlushHeader l = true ↔ trimEol l = defaultHeader := beq_iff_eq
    by_cases hls : ls = []
    · subst hls
      cases trailing with
      | true =>
        have hsplit := @splitInclusive_cons _ [] hl
        rw [unlines, if_pos rfl, hsplit, splitInclusive, sectionOf, readerLines, trimEol_append]
        by_cases hheader : isFlushHeader l = true
        · rw [if_pos (hflush.1 hheader), if_pos hheader]
          rfl
        · rw [if_neg (mt hflush.2 hheader), if_neg hheader]
          rfl
      | false =>
        rw [unlines, if_neg (by decide)]
        by_cases hne : l = []
        · rw [hne]
          rfl
        · rw [splitInclusive_of_not_mem hl hne, sectionOf, readerLines]
          by_cases hheader : isFlushHeader l = true
          · rw [if_pos (hflush.1 hheader), if_pos hheader]
            rfl
          · rw [if_neg (mt hflush.2 hheader), if_neg hheader]
            rfl
    · rw [unlines_cons hls, splitInclusive_cons hl, sectionOf, readerLines, trimEol_append]
      by_cases hheader : isFlushHeader l = true
      · rw [if_pos (hflush.1 hheader), if_pos hheader, hbody, Option.map_some, Option.map_some,
          lookup_unlines htake]
      · rw [if_neg (mt hflush.2 hheader), if_neg hheader, ih hls']

end

/-! ## Values found -/

/-- The value a read finds. -/
def found : Except KvsError (Option Bytes) → Option Bytes
  | .ok v => v
  | .error _ => none

/-- What a value of the file stands for; an empty one, and one that is not Base64, for none. -/
def decodeValue (B : Base64) (v : Line) : Option Bytes := if v = [] then none else B.decodeVec v

/-- The value that lines give a key: that of its first line. -/
def valueIn (B : Base64) (ls : List Line) (key : Line) : Option Bytes :=
  (ls.find? (isLineOf key)).bind fun line => decodeValue B (valueOf line)

section
variable {B : Base64} {t : KvsTxn} {key : Line}

theorem found_get : found (t.get B key) = valueIn B t.body key := by
  rw [KvsTxn.get, valueIn, KvsTxn.find]
  cases t.body.find? (isLineOf key) with
  | none => rfl
  | some line =>
    dsimp only
    rw [Option.bind_some, decodeValue]
    split
    · rfl
    · cases B.decodeVec (valueOf line) <;> rfl

/-- A read finds what the lines of its section give. -/
theorem found_withDefaultSection {ls : List Line} {trailing : Bool} (h : ∀ l ∈ ls, '\n' ∉ l) :
    found (withDefaultSection (unlines trailing ls) (decodeB64 B · key)) =
      (readerLines ls).bind (valueIn B · key) := by
  have hlookup := @lookup_defaultSection key _ trailing h
  rw [withDefaultSection]
  cases hsec : defaultSection (unlines trailing ls) with
  | none =>
    rw [hsec] at hlookup
    rw [Option.map_eq_none_iff.1 hlookup.symm]
    rfl
  | some sec =>
    rw [hsec, Option.map_some] at hlookup
    obtain ⟨ls', hls', hvalue⟩ := Option.map_eq_some_iff.1 hlookup.symm
    rw [hls']
    dsimp only
    rw [Option.bind_some, valueIn, decodeB64, ← hvalue]
    cases ls'.find? (isLineOf key) with
    | none => rfl
    | some line =>
      rw [Option.map_some, Option.bind_some]
      dsimp only
      rw [decodeValue]
      split
      · rfl
      · cases B.decodeVec (valueOf line) <;> rfl

end

/-! ## Two sections -/

theorem trim_append_of_whitespace {s w : List Char} (h : ∀ c ∈ w, isWhitespace c = true) :
    trim (s ++ w) = trim s := by
  induction w using List.reverseRecOn with
  | nil => rw [List.append_nil]
  | append_singleton w c ih =>
    rw [← List.append_assoc, trim_append_whitespace (h c (by simp)),
      ih fun d hd => h d (List.mem_append_left _ hd)]

/-- A flush header is a header, and starts with `[`. -/
theorem of_isFlushHeader {line : Line} (h : isFlushHeader line = true) :
    trim line = defaultHeader ∧ isFlushBracket line = true := by
  have heol : trimEol line = defaultHeader := beq_iff_eq.1 h
  have hline : trimEol line ++ line.rtakeWhile (fun c => c == '\r' || c == '\n') = line :=
    List.rdropWhile_append_rtakeWhile
  have hws : ∀ c ∈ line.rtakeWhile (fun c => c == '\r' || c == '\n'), isWhitespace c = true := by
    intro c hc
    have hc := List.mem_rtakeWhile_imp hc
    simp only [Bool.or_eq_true, beq_iff_eq] at hc
    obtain rfl | rfl := hc <;> decide
  constructor
  · rw [← hline, trim_append_of_whitespace hws, heol]
    decide
  · rw [← head?_trimEol, heol]
    rfl

theorem beginsSection_of_isFlushBracket {line : Line} (h : isFlushBracket line = true) :
    beginsSection line = true := by
  cases line with
  | nil => cases h
  | cons c line =>
    obtain rfl : c = '[' := by simpa [isFlushBracket] using h
    rfl

/-- The header a transaction cuts at is one for the readers. -/
def KvsTxn.isFlush (t : KvsTxn) : Bool := (t.before.getLast?.map isFlushHeader).getD false

/-- The lines of a later section that the readers take for lines of this one. -/
def KvsTxn.overrun (t : KvsTxn) : List Line := t.after.takeWhile (!isFlushBracket ·)

theorem readerLines_append {ls rest : List Line} (h : ∀ l ∈ ls, isFlushHeader l = false) :
    readerLines (ls ++ rest) = readerLines rest := by
  induction ls with
  | nil => rfl
  | cons l ls ih =>
    rw [List.cons_append, readerLines, h l (List.mem_cons_self ..), if_neg Bool.false_ne_true,
      ih fun l' hl' => h l' (List.mem_cons_of_mem _ hl')]

section
variable {B : Base64} {t : KvsTxn} {key : Line}

/-- The readers see the section of the transaction and what it overruns, or, when its header is not
flush, a section behind it. -/
theorem readerLines_lines (h : t.Cut) : readerLines t.lines =
    if t.isFlush then some (t.body ++ t.overrun) else readerLines t.after := by
  obtain ⟨pre, hd, hbefore, -, hpre⟩ := h.header
  have hpre' : ∀ l ∈ pre, isFlushHeader l = false := fun l hl => by
    rw [← Bool.not_eq_true]
    exact fun hf => hpre l hl (of_isFlushHeader hf).1
  have hbody : ∀ l ∈ t.body, isFlushBracket l = false := fun l hl => by
    rw [← Bool.not_eq_true]
    intro hf
    have hb := h.body l hl
    rw [beginsSection_of_isFlushBracket hf] at hb
    cases hb
  have hflush : t.isFlush = isFlushHeader hd := by
    rw [KvsTxn.isFlush, hbefore, List.getLast?_concat]
    rfl
  rw [KvsTxn.lines, hbefore, List.append_assoc, List.append_assoc, readerLines_append hpre',
    List.singleton_append, readerLines, hflush]
  split
  · rw [List.takeWhile_append_of_pos fun l hl => by rw [hbody l hl]; rfl]
    rfl
  · refine readerLines_append fun l hl => ?_
    rw [← Bool.not_eq_true]
    intro hf
    have hb := hbody l hl
    rw [(of_isFlushHeader hf).2] at hb
    cases hb

/-- The key is read the same. -/
def KvsTxn.ReadsSame (B : Base64) (t : KvsTxn) (key : Line) : Prop :=
  if t.isFlush then (∃ l ∈ t.body, isLineOf key l = true) ∨ valueIn B t.overrun key = none
  else (readerLines t.after).bind (valueIn B · key) = valueIn B t.body key

end

/-! ## Values that a transaction leaves -/

section
variable {B : Base64} {t t' : KvsTxn} {key line : Line}

/-- What a reader finds in the text a transaction leaves. -/
theorem found_commit (h : t.Cut) :
    found (withDefaultSection t.commit (decodeB64 B · key)) =
      if t.isFlush then valueIn B (t.body ++ t.overrun) key
      else (readerLines t.after).bind (valueIn B · key) := by
  rw [h.commit, found_withDefaultSection h.noFeed, readerLines_lines h]
  split
  · rfl
  · rfl

/-- A key whose line stays is read as before. -/
theorem found_commit_congr (h : t.Cut) (h' : t'.Cut) (hbefore : t'.before = t.before)
    (hafter : t'.after = t.after) (hfind : t'.find key = t.find key) :
    found (withDefaultSection t'.commit (decodeB64 B · key)) =
      found (withDefaultSection t.commit (decodeB64 B · key)) := by
  have hflush : t'.isFlush = t.isFlush := by rw [KvsTxn.isFlush, hbefore, KvsTxn.isFlush]
  have hover : t'.overrun = t.overrun := by rw [KvsTxn.overrun, hafter, KvsTxn.overrun]
  rw [found_commit h', found_commit h, hflush, hover, hafter, valueIn, valueIn, List.find?_append,
    List.find?_append]
  rw [KvsTxn.find, KvsTxn.find] at hfind
  rw [hfind]

/-- With a flush header, a reader finds the line of the section. -/
theorem found_commit_of_find (h : t.Cut) (hflush : t.isFlush = true)
    (hfind : t.find key = some line) :
    found (withDefaultSection t.commit (decodeB64 B · key)) = decodeValue B (valueOf line) := by
  rw [found_commit h, if_pos hflush, valueIn, List.find?_append]
  rw [KvsTxn.find] at hfind
  rw [hfind, Option.some_or, Option.bind_some]

end

end MatStack
