import Debswarm.Security.Core
import Debswarm.Text.Search
import Mathlib.Data.List.Forall2

/-!
# Addresses in disguise

System resolvers read more than dotted decimals as an IPv4 address: `inet_aton` takes one to
four numbers, decimal, octal or hexadecimal, of which the last fills the bytes that are left.
The guard against internal hosts reads one number and four; an address written as two or three
passes it.
-/

namespace Debswarm.Security

open Text

/-! ## What resolvers read -/

/-- A number as `inet_aton` reads it. -/
def atonNumber (text : Str) : Option Nat :=
  if isHexText text then digitsIn 16 (text.drop 2)
  else if text.head? = some 48 ∧ text ≠ [48] then digitsIn 8 (text.drop 1)
  else digitsIn 10 text

/-- The address that `inet_aton` assigns to a text. -/
def inetAton (host : Str) : Option Nat :=
  match (splitByte 46 host).mapM atonNumber with
  | some [a] => if a < 2 ^ 32 then some a else none
  | some [a, b] => if a < 256 ∧ b < 2 ^ 24 then some (a * 2 ^ 24 + b) else none
  | some [a, b, c] =>
    if a < 256 ∧ b < 256 ∧ c < 2 ^ 16 then some (a * 2 ^ 24 + b * 2 ^ 16 + c) else none
  | some [a, b, c, d] =>
    if a < 256 ∧ b < 256 ∧ c < 256 ∧ d < 256 then
      some (a * 2 ^ 24 + b * 2 ^ 16 + c * 2 ^ 8 + d)
    else none
  | _ => none

variable {net : Network} {host text : Str} {address : Nat}

theorem head_of_isHexText (isHex : isHexText text = true) : text.head? = some 48 ∧ text ≠ [48] := by
  simp only [isHexText, Bool.or_eq_true, List.isPrefixOf_iff_prefix] at isHex
  rcases isHex with ⟨rest, rfl⟩ | ⟨rest, rfl⟩ <;> exact ⟨rfl, nofun⟩

theorem parseNumber_eq (bits : Nat) (text : Str) :
    parseNumber bits text = (atonNumber text).filter (· < 2 ^ bits) := by
  unfold parseNumber atonNumber
  split
  · split
    · rfl
    · rename_i short
      rw [List.drop_eq_nil_of_le (not_lt.mp short)]
      rfl
  · have isOctal : (ofAscii "0").isPrefixOf text ∧ text.length > 1 ↔
        text.head? = some 48 ∧ text ≠ [48] := by
      rcases text with _ | ⟨first, _ | ⟨second, rest⟩⟩
      · simp
      · simp
      · simp [show ofAscii "0" = [48] from rfl, List.isPrefixOf]
        exact eq_comm
    by_cases octal : text.head? = some 48 ∧ text ≠ [48]
    · rw [if_pos (isOctal.mpr octal), if_pos octal]
      rfl
    · rw [if_neg (mt isOctal.mp octal), if_neg octal]
      rfl

theorem parseOctet_eq (text : Str) : parseOctet text = (atonNumber text).filter (· < 256) := by
  unfold parseOctet
  split
  · rename_i empty
    rw [empty]
    rfl
  · exact parseNumber_eq 8 text

theorem parseOctet_of_decimalOctet {value : Nat} (isDecimal : decimalOctet text = some value) :
    parseOctet text = some value := by
  unfold decimalOctet at isDecimal
  split at isDecimal
  · cases isDecimal
  · rename_i noZero
    rw [parseOctet_eq, atonNumber, if_neg fun isHex => noZero (head_of_isHexText isHex),
      if_neg noZero]
    exact isDecimal

/-! ## Parts of a text -/

theorem mapM_eq_some_iff {α β : Type} {read : α → Option β} {list : List α} {values : List β} :
    list.mapM read = some values ↔
      List.Forall₂ (fun x value => read x = some value) list values := by
  induction list generalizing values with
  | nil => cases values <;> simp
  | cons x list ih =>
    cases values with
    | nil => simp [Option.bind_eq_some_iff]
    | cons value values => simp [Option.bind_eq_some_iff, ih]

theorem mapM_parseOctet (parts : List Str) :
    parts.mapM parseOctet = (parts.mapM atonNumber).filter (·.all (· < 256)) := by
  induction parts with
  | nil => rfl
  | cons part parts ih =>
    rw [List.mapM_cons, List.mapM_cons, ih, parseOctet_eq]
    cases atonNumber part with
    | none => rfl
    | some value =>
      cases parts.mapM atonNumber with
      | none => by_cases small : value < 256 <;> simp [Option.filter, small]
      | some values =>
        by_cases small : value < 256
        · simp [Option.filter, small]
          split <;> rfl
        · simp [Option.filter, small]

/-- Four octets are read as the resolvers read them. -/
theorem ofOctets_mapM_parseOctet (host : Str) :
    ofOctets ((splitByte 46 host).mapM parseOctet) =
      if (splitByte 46 host).length = 4 then (inetAton host).map .v4 else none := by
  rw [mapM_parseOctet, inetAton]
  cases read : (splitByte 46 host).mapM atonNumber with
  | none => simp [ofOctets]
  | some values =>
    rw [(mapM_eq_some_iff.mp read).length_eq]
    rcases values with _ | ⟨a, _ | ⟨b, _ | ⟨c, _ | ⟨d, _ | ⟨e, rest⟩⟩⟩⟩⟩
    case cons.cons.cons.cons.nil =>
      by_cases small : a < 256 ∧ b < 256 ∧ c < 256 ∧ d < 256
      · simp [Option.filter, ofOctets, ipv4, small]
      · simp [Option.filter, ofOctets, small]
    all_goals simp [Option.filter, ofOctets]

/-- One number is read as the resolvers read it. -/
theorem parseNumber_of_noDot (noDot : 46 ∉ host) :
    ((parseNumber 32 host).map fun num =>
        ipv4 (num / 2 ^ 24 % 256) (num / 2 ^ 16 % 256) (num / 2 ^ 8 % 256) (num % 256)) =
      (inetAton host).map .v4 := by
  rw [parseNumber_eq, inetAton, splitByte_of_not_mem noDot, List.mapM_cons]
  cases atonNumber host with
  | none => rfl
  | some num =>
    change ((some num).filter _).map _ = (if num < 2 ^ 32 then some num else none).map _
    rw [Option.filter_some]
    by_cases small : num < 2 ^ 32
    · have octets : num / 2 ^ 24 % 256 * 2 ^ 24 + num / 2 ^ 16 % 256 * 2 ^ 16 +
          num / 2 ^ 8 % 256 * 2 ^ 8 + num % 256 = num := by omega
      rw [if_pos (decide_eq_true small), if_pos small, Option.map_some, Option.map_some, ipv4,
        octets]
    · rw [if_neg (by simpa using small), if_neg small]
      rfl

theorem dottedDecimal_eq_or (host : Str) :
    dottedDecimal host = none ∨
      dottedDecimal host = ofOctets ((splitByte 46 host).mapM parseOctet) := by
  unfold dottedDecimal
  cases read : (splitByte 46 host).mapM decimalOctet with
  | none => exact .inl rfl
  | some values =>
    have octets : (splitByte 46 host).mapM parseOctet = some values :=
      mapM_eq_some_iff.mpr ((mapM_eq_some_iff.mp read).imp fun _ _ => parseOctet_of_decimalOctet)
    exact .inr (by rw [octets])

theorem parseBracketed_of_not_mem (noBracket : 91 ∉ host) : parseBracketed net host = none := by
  rw [parseBracketed, if_neg]
  rintro ⟨first, -⟩
  exact noBracket (List.mem_of_mem_head? first)

/-- Without colon or brackets, the guard reads as the resolvers do, in one part or four. -/
theorem parseIPPermissive_eq (noColon : 58 ∉ host) (notBracketed : parseBracketed net host = none) :
    parseIPPermissive net host =
      if (splitByte 46 host).length = 1 ∨ (splitByte 46 host).length = 4 then
        (inetAton host).map .v4
      else none := by
  have hasColon : contains host (ofAscii ":") = false :=
    (contains_singleton host 58).trans (decide_eq_false noColon)
  have octets := ofOctets_mapM_parseOctet host
  unfold parseIPPermissive
  rw [net.parseIP_of_noColon host noColon, notBracketed, hasColon]
  by_cases isDotted : 46 ∈ host
  · obtain ⟨front, rest, parts⟩ := List.append_of_mem isDotted
    have several : (splitByte 46 host).length ≠ 1 := by
      have some_ := List.length_pos_iff.mpr (splitByte_ne_nil 46 front)
      have more := List.length_pos_iff.mpr (splitByte_ne_nil 46 rest)
      rw [parts, splitByte_append_cons, List.length_append]
      omega
    have hasDot : contains host (ofAscii ".") = true :=
      (contains_singleton host 46).trans (decide_eq_true isDotted)
    simp only [hasDot, several, false_or, Bool.false_eq_true, if_false, if_true, ← octets]
    rcases dottedDecimal_eq_or host with none | same
    · rw [none]
    · rw [same]
      cases ofOctets ((splitByte 46 host).mapM parseOctet) <;> rfl
  · have hasDot : contains host (ofAscii ".") = false :=
      (contains_singleton host 46).trans (decide_eq_false isDotted)
    have single : (splitByte 46 host).length = 1 := by rw [splitByte_of_not_mem isDotted]; rfl
    have none : dottedDecimal host = none := by
      rcases dottedDecimal_eq_or host with none | same
      · exact none
      · rw [same, octets, single]
        rfl
    simp only [none, hasDot, single, true_or, Bool.false_eq_true, if_false, if_true]
    exact parseNumber_of_noDot isDotted

/-! ## Letter case and bytes -/

theorem lowerByte_eq_iff {byte other : UInt8} (notLetter : other < 65) :
    lowerByte byte = other ↔ byte = other := by
  unfold lowerByte
  grind

theorem digitValue_lowerByte (byte : UInt8) : digitValue (lowerByte byte) = digitValue byte := by
  unfold digitValue lowerByte
  grind

theorem isHexText_lower (text : Str) : isHexText (text.map lowerByte) = isHexText text := by
  rcases text with _ | ⟨first, _ | ⟨second, rest⟩⟩
  · rfl
  · simp [isHexText, show ofAscii "0x" = [48, 120] from rfl, show ofAscii "0X" = [48, 88] from rfl,
      List.isPrefixOf]
  · have isZero : 48 = lowerByte first ↔ 48 = first := by
      rw [eq_comm, lowerByte_eq_iff (by decide), eq_comm]
    have isX : 120 = lowerByte second ∨ 88 = lowerByte second ↔ 120 = second ∨ 88 = second := by
      unfold lowerByte
      grind
    rw [Bool.eq_iff_iff]
    simp [isHexText, show ofAscii "0x" = [48, 120] from rfl, show ofAscii "0X" = [48, 88] from rfl,
      List.isPrefixOf, ← and_or_left, isZero, isX]

theorem atonNumber_lower (text : Str) : atonNumber (text.map lowerByte) = atonNumber text := by
  have digits : ∀ base rest, digitsIn base (rest.map lowerByte) = digitsIn base rest := by
    intro base rest
    simp [digitsIn, List.foldl_map, digitValue_lowerByte]
  have isOctal : (text.map lowerByte).head? = some 48 ∧ text.map lowerByte ≠ [48] ↔
      text.head? = some 48 ∧ text ≠ [48] := by
    have isZero := fun byte => @lowerByte_eq_iff byte 48 (by decide)
    cases text <;> simp [isZero]
  unfold atonNumber
  simp only [isHexText_lower, isOctal, ← List.map_drop, digits]

theorem inetAton_lower (host : Str) : inetAton (host.map lowerByte) = inetAton host := by
  unfold inetAton
  rw [splitByte_map fun byte => lowerByte_eq_iff (by decide)]
  simp [Function.comp_def, atonNumber_lower]

theorem mem_of_digitsIn {base value : Nat} (small : base ≤ 16)
    (isNumber : digitsIn base text = some value) : ∀ byte ∈ text, digitValue byte < 16 := by
  unfold digitsIn at isNumber
  split at isNumber
  · rename_i valid
    intro byte mem
    exact lt_of_lt_of_le (of_decide_eq_true (List.all_eq_true.mp valid.2 byte mem)) small
  · cases isNumber

theorem mem_of_atonNumber {value : Nat} (isNumber : atonNumber text = some value) :
    ∀ byte ∈ text, digitValue byte < 16 ∨ lowerByte byte = 120 := by
  intro byte mem
  unfold atonNumber at isNumber
  split at isNumber
  · rename_i isHex
    simp only [isHexText, Bool.or_eq_true, List.isPrefixOf_iff_prefix] at isHex
    have mark : ∀ byte ∈ ofAscii "0x" ++ ofAscii "0X",
        digitValue byte < 16 ∨ lowerByte byte = 120 := by decide +kernel
    rcases isHex with ⟨rest, rfl⟩ | ⟨rest, rfl⟩
    · rcases List.mem_append.mp mem with inMark | inRest
      · exact mark byte (List.mem_append_left _ inMark)
      · exact .inl (mem_of_digitsIn le_rfl isNumber byte inRest)
    · rcases List.mem_append.mp mem with inMark | inRest
      · exact mark byte (List.mem_append_right _ inMark)
      · exact .inl (mem_of_digitsIn le_rfl isNumber byte inRest)
  · split at isNumber
    · rename_i isOctal
      obtain ⟨rest, rfl⟩ := List.head?_eq_some_iff.mp isOctal.1
      rcases List.mem_cons.mp mem with rfl | inRest
      · exact .inl (by decide)
      · exact .inl (mem_of_digitsIn (by decide) isNumber byte inRest)
    · exact .inl (mem_of_digitsIn (by decide) isNumber byte mem)

/-- A text that is read as an address consists of digits, `x` and dots. -/
theorem mem_of_inetAton (isRead : inetAton host = some address) :
    ∀ byte ∈ host, byte = 46 ∨ digitValue byte < 16 ∨ lowerByte byte = 120 := by
  unfold inetAton at isRead
  cases read : (splitByte 46 host).mapM atonNumber with
  | none =>
    rw [read] at isRead
    cases isRead
  | some values =>
    have numbers := (mapM_eq_some_iff.mp read).imp fun piece value isNumber =>
      And.intro (mem_of_atonNumber isNumber) isNumber
    intro byte mem
    refine (exists_mem_splitByte mem).imp_right ?_
    rintro ⟨piece, isPiece, inPiece⟩
    exact ((List.forall₂_and_left _ _).mp numbers).1 piece isPiece byte inPiece

theorem isHost_of_inetAton (isRead : inetAton host = some address) : IsHost host := by
  constructor
  · rintro rfl
    cases isRead
  · rw [List.all_eq_true]
    intro byte mem
    have isOne := mem_of_inetAton isRead byte mem
    unfold digitValue at isOne
    unfold isHostByte
    grind

/-! ## What the guard reads -/

section

variable (isHost : IsHost host)

include isHost

theorem not_mem_of_isHost {byte : UInt8} (other : isHostByte byte = false) :
    byte ∉ host := by
  intro mem
  rw [List.all_eq_true.mp isHost.2 byte mem] at other
  cases other

theorem toLower_of_isHost :
    toLower net.unicodeLower host = host.map lowerByte := by
  rw [toLower, if_pos]
  rw [List.all_eq_true]
  intro byte mem
  have isOne := List.all_eq_true.mp isHost.2 byte mem
  unfold isHostByte lowerByte at isOne
  grind

theorem isHost_lower : IsHost (host.map lowerByte) := by
  refine ⟨by simpa using isHost.1, ?_⟩
  rw [List.all_map, List.all_eq_true]
  intro byte mem
  have isOne := List.all_eq_true.mp isHost.2 byte mem
  unfold isHostByte lowerByte at *
  grind

theorem toLower_lower :
    toLower net.unicodeLower (host.map lowerByte) = host.map lowerByte := by
  rw [toLower_of_isHost (isHost_lower isHost), List.map_map]
  refine List.map_congr_left fun byte _ => ?_
  simp only [Function.comp_apply, lowerByte]
  grind

theorem extractHost_of_hostname {url : Str}
    (named : net.hostname url = some host) : extractHost net url = host.map lowerByte := by
  rw [extractHost, named, Option.map_some, toLower_of_isHost isHost]
  rfl

theorem isBlockedHost_of_hostname {url : Str}
    (named : net.hostname url = some host) :
    isBlockedHost net url = isBlockedHostOrIP net host := by
  unfold isBlockedHost isBlockedHostOrIP
  rw [extractHost_of_hostname isHost named, if_neg (isHost_lower isHost).1, toLower_lower isHost,
    toLower_of_isHost isHost]

end

theorem isBlockedName_iff {lower : Str} :
    isBlockedName lower = true ↔
      lower = ofAscii "localhost" ∨ ofAscii ".localhost" <:+ lower ∨
        ofAscii "metadata." <+: lower := by
  change (lower == ofAscii "localhost" || hasSuffix lower (ofAscii ".localhost") ||
    ((ofAscii "metadata.").isPrefixOf lower || false)) = true ↔ _
  simp [hasSuffix, or_assoc]

/-- The names that are blocked have a letter that no number has. -/
theorem not_isBlockedName_of_inetAton (isRead : inetAton host = some address) :
    isBlockedName host = false := by
  rw [Bool.eq_false_iff]
  intro blocked
  have hasLetter : 116 ∈ host := by
    rcases isBlockedName_iff.mp blocked with rfl | isSuffix | isPrefix
    · decide
    · exact isSuffix.subset (by decide)
    · exact isPrefix.subset (by decide)
  exact absurd (mem_of_inetAton isRead 116 hasLetter) (by decide)

/-- Blocked addresses are blocked in every form that resolvers take for them, and what is read as an
IPv4 address is what they read. -/
def ReadsAsResolvers (net : Network) (host : Str) : Prop :=
  (∀ address, inetAton host = some address → isBlockedIP (.v4 address) = true →
    ∀ scheme path, IsPath path → isBlockedHost net (urlOf scheme host path) = true) ∧
  ∀ address, parseIPPermissive net host = some (.v4 address) → inetAton host = some address

/-- A blocked address has one part or four, and an IPv4 address no form of IPv6 or in brackets. -/
def HasPlainForm (net : Network) (host : Str) : Prop :=
  (∀ address, inetAton host = some address → isBlockedIP (.v4 address) = true →
    (splitByte 46 host).length = 1 ∨ (splitByte 46 host).length = 4) ∧
  ∀ address, (net.parseIP host = some (.v4 address) → 58 ∉ host) ∧
    ∀ inner, host = 91 :: inner ++ [93] → net.parseIP host = none →
      net.parseIP inner ≠ some (.v4 address)

/-- What the guard makes of a host that the resolvers read. -/
theorem isBlockedHostOrIP_of_inetAton (isRead : inetAton host = some address) :
    isBlockedHostOrIP net host = true ↔
      ((splitByte 46 host).length = 1 ∨ (splitByte 46 host).length = 4) ∧
        isBlockedIP (.v4 address) = true := by
  have isHost := isHost_of_inetAton isRead
  have isLower := isHost_lower isHost
  have length : (splitByte 46 (host.map lowerByte)).length = (splitByte 46 host).length := by
    rw [splitByte_map fun byte => lowerByte_eq_iff (by decide), List.length_map]
  have read := @parseIPPermissive_eq net _ (not_mem_of_isHost isLower (by decide))
    (parseBracketed_of_not_mem (not_mem_of_isHost isLower (by decide)))
  rw [inetAton_lower, isRead, length] at read
  unfold isBlockedHostOrIP
  dsimp only
  rw [toLower_of_isHost isHost, read]
  by_cases few : (splitByte 46 host).length = 1 ∨ (splitByte 46 host).length = 4
  · simp [few]
  · have notName := not_isBlockedName_of_inetAton ((inetAton_lower host).trans isRead)
    simp [few, notName]

theorem parseBracketed_eq_some_iff {ip : IP} :
    parseBracketed net host = some ip ↔
      ∃ inner, host = 91 :: inner ++ [93] ∧ net.parseIP inner = some ip := by
  rw [parseBracketed]
  constructor
  · intro parsed
    split at parsed
    · rename_i bracketed
      obtain ⟨rest, rfl⟩ := List.head?_eq_some_iff.mp bracketed.1
      obtain ⟨front, ends⟩ := List.isSuffixOf_iff_suffix.mp bracketed.2
      cases front with
      | nil => cases ends
      | cons first inner =>
        obtain ⟨rfl, rfl⟩ := List.cons.inj ends
        have bare : (inner ++ ofAscii "]").dropLast = inner := List.dropLast_concat
        exact ⟨inner, rfl, bare ▸ parsed⟩
    · cases parsed
  · rintro ⟨inner, rfl, parsed⟩
    have bracketed : hasSuffix (91 :: inner ++ [93]) (ofAscii "]") = true :=
      List.isSuffixOf_iff_suffix.mpr ⟨91 :: inner, rfl⟩
    rw [if_pos ⟨rfl, bracketed⟩, List.cons_append, List.tail_cons, List.dropLast_concat, parsed]

/-- An IPv4 address is read so by the library, perhaps in brackets, or by the resolvers. -/
theorem parseIPPermissive_eq_v4_iff :
    parseIPPermissive net host = some (.v4 address) ↔
      net.parseIP host = some (.v4 address) ∨
      net.parseIP host = none ∧
        (parseBracketed net host = some (.v4 address) ∨
          parseBracketed net host = none ∧ 58 ∉ host ∧
            ((splitByte 46 host).length = 1 ∨ (splitByte 46 host).length = 4) ∧
            inetAton host = some address) := by
  cases parsed : net.parseIP host with
  | some ip => simp [parseIPPermissive, parsed]
  | none =>
    cases bracketed : parseBracketed net host with
    | some ip => simp [parseIPPermissive, parsed, bracketed]
    | none =>
      by_cases hasColon : 58 ∈ host
      · have found : contains host (ofAscii ":") = true :=
          (contains_singleton host 58).trans (decide_eq_true hasColon)
        simp [parseIPPermissive, parsed, bracketed, found, hasColon]
      · rw [parseIPPermissive_eq hasColon bracketed]
        split <;> simp_all

theorem inetAton_of_parseIP (noColon : 58 ∉ host)
    (parsed : net.parseIP host = some (.v4 address)) : inetAton host = some address := by
  rw [net.parseIP_of_noColon host noColon] at parsed
  rcases dottedDecimal_eq_or host with none | same
  · rw [none] at parsed
    cases parsed
  · rw [same, ofOctets_mapM_parseOctet] at parsed
    split at parsed
    · simpa using parsed
    · cases parsed

/-- The guard agrees with the resolvers on a host exactly if its form is plain. -/
theorem readsAsResolvers_iff_hasPlainForm (net : Network) (host : Str) :
    ReadsAsResolvers net host ↔ HasPlainForm net host := by
  have isPath : IsPath [] := ⟨.inl rfl, nofun, by simp⟩
  constructor
  · rintro ⟨blocks, agrees⟩
    have isHost : ∀ {address}, parseIPPermissive net host = some (.v4 address) → IsHost host :=
      fun isParsed => isHost_of_inetAton (agrees _ isParsed)
    refine ⟨fun address isRead blocked => ?_, fun address => ⟨fun parsed => ?_, ?_⟩⟩
    · have isBlocked := blocks address isRead blocked .http [] isPath
      have isHost := isHost_of_inetAton isRead
      rw [isBlockedHost_of_hostname isHost (net.hostname_url _ _ _ isHost isPath),
        isBlockedHostOrIP_of_inetAton isRead] at isBlocked
      exact isBlocked.1
    · exact not_mem_of_isHost (isHost (parseIPPermissive_eq_v4_iff.mpr (.inl parsed))) (by decide)
    · intro inner isInner notParsed parsed
      have bracketed := parseBracketed_eq_some_iff.mpr ⟨inner, isInner, parsed⟩
      have isParsed := parseIPPermissive_eq_v4_iff.mpr (.inr ⟨notParsed, .inl bracketed⟩)
      exact not_mem_of_isHost (isHost isParsed) (by decide : isHostByte 91 = false)
        (isInner ▸ List.mem_cons_self)
  · rintro ⟨isPlain, isBare⟩
    refine ⟨fun address isRead blocked scheme path isPath => ?_, fun address isParsed => ?_⟩
    · have isHost := isHost_of_inetAton isRead
      rw [isBlockedHost_of_hostname isHost (net.hostname_url _ _ _ isHost isPath),
        isBlockedHostOrIP_of_inetAton isRead]
      exact ⟨isPlain address isRead blocked, blocked⟩
    · rcases parseIPPermissive_eq_v4_iff.mp isParsed with
        parsed | ⟨notParsed, bracketed | ⟨-, -, -, isRead⟩⟩
      · exact inetAton_of_parseIP ((isBare address).1 parsed) parsed
      · obtain ⟨inner, isInner, parsed⟩ := parseBracketed_eq_some_iff.mp bracketed
        exact absurd parsed ((isBare address).2 inner isInner notParsed)
      · exact isRead

/-- The host name of a URL, if that is well formed. -/
def plainHostname (url : Str) : Option Str :=
  some (((url.dropWhile (· ≠ 47)).drop 2).takeWhile isHostByte)

theorem plainHostname_urlOf {path : Str} (isHost : IsHost host) (rooted : IsRooted path)
    (scheme : Proxy.Scheme) : plainHostname (urlOf scheme host path) = some host := by
  have behind : ((urlOf scheme host path).dropWhile (· ≠ 47)).drop 2 = host ++ path := by
    cases scheme <;> rfl
  have ends : path.takeWhile isHostByte = [] := by
    rcases rooted with rfl | rooted
    · rfl
    · obtain ⟨rest, rfl⟩ := List.head?_eq_some_iff.mp rooted
      rfl
  rw [plainHostname, behind, List.takeWhile_append_of_pos (List.all_eq_true.mp isHost.2), ends,
    List.append_nil]

/-- The library functions as far as they are documented, and no further. -/
def plainNetwork : Network where
  unicodeLower := id
  hostname := plainHostname
  path _ := none
  splitHostPort target :=
    some (target.takeWhile isHostByte, (target.dropWhile isHostByte).tail)
  parseIP text := if text.contains 58 then none else dottedDecimal text
  hostname_rooted scheme _ _ isHost rooted := .inl (plainHostname_urlOf isHost rooted scheme)
  hostname_url scheme _ _ isHost isPath := plainHostname_urlOf isHost isPath.1 scheme
  splitHostPort_target := by
    intro host port isHost _
    rw [List.takeWhile_append_of_pos (List.all_eq_true.mp isHost.2),
      List.dropWhile_append_of_pos (List.all_eq_true.mp isHost.2)]
    simp [List.takeWhile, List.dropWhile, show isHostByte 58 = false from rfl]
  parseIP_of_noColon := by
    intro text noColon
    simp [noColon]

/-- The loopback address in two parts is not blocked. -/
theorem not_blocked_of_two_parts :
    inetAton (ofAscii "127.1") = some (127 * 2 ^ 24 + 1) ∧
      isBlockedIP (.v4 (127 * 2 ^ 24 + 1)) = true ∧
      isBlockedHost plainNetwork (urlOf .http (ofAscii "127.1") (ofAscii "/debian/")) = false := by
  decide +kernel

end Debswarm.Security
