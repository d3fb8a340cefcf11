import Mathlib.Data.List.Sort
import MatStack.Controller.Tlv
import MatStack.Lib.Text
import MatStack.Lib.Utf8

/-!
# Records of service discovery

The records of a DNS message as the controller reads them, and what a node is made of: the port of a
service record, the addresses of its target, and the intervals in its text record. Names are
compared without regard to the case of ASCII letters.
-/

namespace MatStack.Dnssd

/-- A domain name with dots, as text. -/
abbrev Name := List Char

abbrev Ipv6Addr := Fixed 16

/-- The name with small ASCII letters. -/
def Name.lower (n : Name) : Name := n.map Char.toLower

/-- Equality without regard to the case of ASCII letters. -/
def eqIgnoreAsciiCase (a b : Name) : Bool := Name.lower a == Name.lower b

inductive RData where
  | ptr (target : Name)
  | srv (port : UInt16) (target : Name)
  | txt (strings : List Bytes)
  | aaaa (addr : Ipv6Addr)
  | other
deriving Repr, DecidableEq

structure Record where
  name : Name
  rdata : RData
  /-- In seconds; 0 says goodbye. -/
  ttl : UInt32
  cacheFlush : Bool
deriving Repr, DecidableEq

/-- The name of an operational instance ends in this. -/
def operationalSuffix : Name := "._matter._tcp.local".toList

def isLinkLocal (a : Ipv6Addr) : Bool :=
  match a.1 with
  | hi :: lo :: _ => hi == 0xfe && lo &&& 0xc0 == 0x80
  | _ => false

/-! ## Text records -/

/-- Text around its first `=`. -/
def splitOnceEq : List Char → Option (List Char × List Char)
  | [] => none
  | c :: s => if c = '=' then some ([], s) else (splitOnceEq s).map fun (k, v) => (c :: k, v)

/-- The first value of a key, without regard to the key's case. -/
def txtStr (strings : List Bytes) (key : List Char) : Option (List Char) :=
  strings.findSome? fun s =>
    match (Utf8.decode? s).bind splitOnceEq with
    | some (k, v) => if eqIgnoreAsciiCase k key then some v else none
    | none => none

/-- The first value of a key, as a number. -/
def txtU32 (strings : List Bytes) (key : List Char) : Option UInt32 :=
  (txtStr strings key).bind fun v => (Text.parseUnsigned 32 v).map UInt32.ofNat

/-! ## Nodes -/

/-- A node as it is found. -/
structure ResolvedNode where
  port : UInt16
  /-- Addresses that are not link-local come first. -/
  addresses : List Ipv6Addr
  sessionIdleIntervalMs : Option UInt32
  sessionActiveIntervalMs : Option UInt32
deriving Repr, DecidableEq

def ResolvedNode.fromParts (port : UInt16) (addresses : List Ipv6Addr) (txt : List Bytes) :
    ResolvedNode where
  port := port
  addresses := addresses
  sessionIdleIntervalMs := txtU32 txt "SII".toList
  sessionActiveIntervalMs := txtU32 txt "SAI".toList

/-! ## Addresses while the target is unknown -/

def maxAaaa : Nat := 16

/-- One more candidate, of the target if it is known, up to a number of them. -/
def pushAaaa (aaaa : List (Name × Ipv6Addr)) (srvTarget : Option Name) (name : Name)
    (addr : Ipv6Addr) : List (Name × Ipv6Addr) :=
  if srvTarget.any fun target => !eqIgnoreAsciiCase name target then aaaa
  else if aaaa.length ≥ maxAaaa then aaaa
  else if aaaa.any fun (n, a) => a == addr && eqIgnoreAsciiCase n name then aaaa
  else aaaa ++ [(name, addr)]

/-- The candidates of a target. -/
def pruneAaaa (aaaa : List (Name × Ipv6Addr)) (target : Name) : List (Name × Ipv6Addr) :=
  aaaa.filter fun (n, _) => eqIgnoreAsciiCase n target

/-- The addresses of a target, each once, those that are not link-local first. -/
def addressesForTarget (aaaa : List (Name × Ipv6Addr)) (target : Name) : List Ipv6Addr :=
  let addresses := aaaa.foldl (fun addresses (name, addr) =>
    if eqIgnoreAsciiCase name target && !addresses.contains addr then addresses ++ [addr]
    else addresses) []
  addresses.insertionSort fun a b => isLinkLocal a ≤ isLinkLocal b

section
variable {a b c : Name} {aaaa : List (Name × Ipv6Addr)} {target : Name} {addr : Ipv6Addr}

/-- A small letter stays. -/
theorem toLower_toLower (c : Char) : c.toLower.toLower = c.toLower := by
  by_cases h : c.val ≥ 'A'.val ∧ c.val ≤ 'Z'.val
  · have hlow : c.toLower.val = c.val + ('a'.val - 'A'.val) :=
      congrArg Char.val (dif_pos h)
    have hnot : ¬ (c.toLower.val ≥ 'A'.val ∧ c.toLower.val ≤ 'Z'.val) := by
      rw [hlow]
      have hA : ('A'.val).toNat = 65 := rfl
      have hZ : ('Z'.val).toNat = 90 := rfl
      have hd : ('a'.val - 'A'.val).toNat = 32 := rfl
      simp only [ge_iff_le, UInt32.le_iff_toNat_le, UInt32.toNat_add, hA, hZ, hd] at h ⊢
      omega
    exact dif_neg hnot
  · have he : c.toLower = c := dif_neg h
    rw [he, he]

@[simp] theorem Name.lower_lower (n : Name) : Name.lower (Name.lower n) = Name.lower n := by
  rw [Name.lower, Name.lower, List.map_map]
  exact List.map_congr_left fun c _ => toLower_toLower c

theorem eqIgnoreAsciiCase_iff : eqIgnoreAsciiCase a b = true ↔ Name.lower a = Name.lower b := beq_iff_eq

/-- The addresses found for a target are those of its candidates. -/
theorem mem_addressesForTarget :
    addr ∈ addressesForTarget aaaa target ↔
      ∃ name, (name, addr) ∈ aaaa ∧ Name.lower name = Name.lower target := by
  rw [addressesForTarget, List.mem_insertionSort]
  suffices h : ∀ acc : List Ipv6Addr, addr ∈ aaaa.foldl (fun addresses x =>
      if eqIgnoreAsciiCase x.1 target && !addresses.contains x.2 then addresses ++ [x.2]
      else addresses) acc ↔
        addr ∈ acc ∨ ∃ name, (name, addr) ∈ aaaa ∧ Name.lower name = Name.lower target by
    simpa using h []
  induction aaaa with
  | nil => simp
  | cons x aaaa ih =>
    intro acc
    obtain ⟨name, a⟩ := x
    rw [List.foldl_cons, ih]
    have hstep : addr ∈ (if eqIgnoreAsciiCase name target && !acc.contains a then acc ++ [a]
        else acc) ↔ addr ∈ acc ∨ addr = a ∧ Name.lower name = Name.lower target := by
      by_cases hn : Name.lower name = Name.lower target
      · by_cases ha : a ∈ acc
        · rw [if_neg (by simp [ha])]
          constructor
          · exact Or.inl
          · rintro (h | ⟨rfl, -⟩)
            · exact h
            · exact ha
        · rw [if_pos (by simp [eqIgnoreAsciiCase, hn, ha])]
          simp [hn]
      · rw [if_neg (by simp [eqIgnoreAsciiCase, hn])]
        simp [hn]
    rw [hstep, or_assoc]
    refine or_congr_right ⟨?_, ?_⟩
    · rintro (⟨rfl, hn⟩ | ⟨n, hmem, hn⟩)
      · exact ⟨name, List.mem_cons_self, hn⟩
      · exact ⟨n, List.mem_cons_of_mem _ hmem, hn⟩
    · rintro ⟨n, hmem, hn⟩
      rcases List.mem_cons.1 hmem with he | hmem
      · cases he
        exact Or.inl ⟨rfl, hn⟩
      · exact Or.inr ⟨n, hmem, hn⟩

end

end MatStack.Dnssd
