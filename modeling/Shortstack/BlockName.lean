import Shortstack.HostInfo
import Shortstack.L2Operation

/-! Names of chain modules. A name joins the host name, two ports and an index by colons, and
is split at the first colons again. Host names come from the hosts file, which lets every token
through, so a name survives exactly when the host name has no colon of its own. -/
namespace Shortstack

/-- `std::getline` on what is left of a stream. -/
def getline (delim : Char) (cs : List Char) : List Char × List Char :=
  (cs.takeWhile (· != delim), (cs.dropWhile (· != delim)).drop 1)

structure BlockId where
  host : String
  servicePort : ℤ
  managementPort : ℤ
  id : ℤ
  deriving DecidableEq, Repr

namespace BlockIdParser

def parse (name : String) : Except String BlockId :=
  let (host, rest) := getline ':' name.toList
  let (servicePort, rest) := getline ':' rest
  let (managementPort, rest) := getline ':' rest
  let (blockId, _) := getline ':' rest
  match stoi (String.ofList servicePort), stoi (String.ofList managementPort),
      stoi (String.ofList blockId) with
  | some servicePort, some managementPort, some id =>
    .ok ⟨String.ofList host, servicePort, managementPort, id⟩
  | _, _, _ => .error ("Could not parse partition name: " ++ name ++ "; stoi")

def make (host : String) (servicePort managementPort id : ℤ) : String :=
  host ++ ":" ++ toString servicePort ++ ":" ++ toString managementPort ++ ":" ++ toString id

end BlockIdParser

/-- The host, port and block `reset` connects to. -/
def nextChainModuleReset (blockName : String) : Except String (Option (String × ℤ × ℤ)) :=
  if blockName = "nil" then .ok none
  else (BlockIdParser.parse blockName).map fun bid => some (bid.host, bid.servicePort, bid.id)

/-- A row of the hosts file as it is read, before any use of its numbers. -/
structure HostRow where
  instanceName : String
  type : HostType
  hostname : String
  port : ℤ
  row : ℤ
  column : ℤ
  numWorkers : ℤ
  deriving DecidableEq, Repr

namespace HostRow

/-- The cells of a line; a separator at its end starts no further cell. -/
def splitAt (delim : Char) : List Char → List Char → List String
  | [], cell => if cell = [] then [] else [String.ofList cell]
  | c :: cs, cell =>
    if c = delim then String.ofList cell :: splitAt delim cs [] else splitAt delim cs (cell ++ [c])

/-- `getNextLineAndSplitIntoTokens` -/
def tokens (line : String) : List String := splitAt ' ' line.toList []

def parseType : String → Option HostType
  | "L1" => some .l1
  | "L2" => some .l2
  | "L3" => some .l3
  | "KV" => some .kv
  | _ => none

def parseRow : List String → Except String HostRow
  | name :: type :: hostname :: port :: row :: column :: numWorkers :: _ =>
    match parseType type with
    | none => .error ("Unknown host type: " ++ type)
    | some type =>
      match stoi port with
      | none => .error ("Invalid port number: " ++ port)
      | some port =>
        match stoi row with
        | none => .error ("Invalid row number: " ++ row)
        | some row =>
          match stoi column with
          | none => .error ("Invalid column number: " ++ column)
          | some column =>
            match stoi numWorkers with
            | none => .error ("Invalid number of workers: " ++ numWorkers)
            | some numWorkers => .ok ⟨name, type, hostname, port, row, column, numWorkers⟩
  | _ => .error "Invalid CSV row"

/-- `load` over the lines of the file: the hosts up to an empty line, the end or a row that is
refused, and the message for that row. -/
def load : List String → List HostRow × Option String
  | [] => ([], none)
  | line :: lines =>
    if tokens line = [] then ([], none)
    else match parseRow (tokens line) with
      | .error message => ([], some message)
      | .ok host => (host :: (load lines).1, (load lines).2)

end HostRow

namespace HostRow

lemma not_mem_splitAt (delim : Char) (cs cell : List Char) (free : delim ∉ cell) :
    ∀ token ∈ splitAt delim cs cell, delim ∉ token.toList := by
  induction cs generalizing cell with
  | nil =>
    intro token mem
    unfold splitAt at mem
    split at mem
    · simp at mem
    · rw [List.mem_singleton.mp mem, String.toList_ofList]
      exact free
  | cons c cs ih =>
    intro token mem
    unfold splitAt at mem
    split at mem
    · rcases List.mem_cons.mp mem with rfl | mem
      · rw [String.toList_ofList]
        exact free
      · exact ih [] (by simp) token mem
    · next other =>
      refine ih (cell ++ [c]) ?_ token mem
      rw [List.mem_append, not_or]
      exact ⟨free, by simpa using Ne.symm other⟩

lemma hostname_mem_of_parseRow {row : List String} {h : HostRow} (read : parseRow row = .ok h) :
    h.hostname ∈ row := by
  unfold parseRow at read
  split at read
  · split at read
    · simp at read
    · split at read
      · simp at read
      · split at read
        · simp at read
        · split at read
          · simp at read
          · split at read
            · simp at read
            · obtain rfl := Except.ok.inj read
              simp
  · simp at read

lemma hostname_free {lines : List String} {h : HostRow} (loaded : h ∈ (load lines).1) :
    ' ' ∉ h.hostname.toList := by
  induction lines with
  | nil => simp [load] at loaded
  | cons line lines ih =>
    unfold load at loaded
    split at loaded
    · simp at loaded
    · split at loaded
      · simp at loaded
      · next read =>
        rcases List.mem_cons.mp loaded with rfl | later
        · exact not_mem_splitAt ' ' _ [] (by simp) _ (hostname_mem_of_parseRow read)
        · exact ih later

end HostRow

section Getline
variable {delim : Char}

lemma getline_of_mem {field rest : List Char} (free : delim ∉ field) :
    getline delim (field ++ delim :: rest) = (field, rest) := by
  have pass : ∀ c ∈ field, (c != delim) = true := by
    intro c mem
    simp only [bne_iff_ne, ne_eq]
    rintro rfl
    exact free mem
  unfold getline
  rw [List.takeWhile_append_of_pos pass, List.dropWhile_append_of_pos pass]
  simp

lemma getline_last {field : List Char} (free : delim ∉ field) :
    getline delim field = (field, []) := by
  have pass : ∀ c ∈ field, (c != delim) = true := by
    intro c mem
    simp only [bne_iff_ne, ne_eq]
    rintro rfl
    exact free mem
  unfold getline
  rw [List.takeWhile_eq_self_iff.mpr pass, List.dropWhile_eq_nil_iff.mpr pass]
  rfl

lemma not_mem_getline (cs : List Char) : delim ∉ (getline delim cs).1 := by
  intro mem
  have := List.mem_takeWhile_imp mem
  simp at this

end Getline

namespace BlockIdParser

/-- The values of an `int`. -/
def InInt32 (z : ℤ) : Prop := -2 ^ 31 ≤ z ∧ z < 2 ^ 31

lemma colon_not_mem_toString (z : ℤ) : ':' ∉ (toString z).toList := by
  have digits : ∀ n : ℕ, ':' ∉ Nat.toDigits 10 n := fun n mem => by
    have := Nat.isDigit_of_mem_toDigits (b := 10) (by decide) (by decide) mem
    exact absurd this (by decide)
  cases z with
  | ofNat n => simpa [toString, Int.repr, Nat.toList_repr] using digits n
  | negSucc n => simpa [toString, Int.repr, Nat.toList_repr] using digits (n + 1)

lemma toList_make (host : String) (servicePort managementPort id : ℤ) :
    (make host servicePort managementPort id).toList =
      host.toList ++ ':' :: ((toString servicePort).toList ++ ':' ::
        ((toString managementPort).toList ++ ':' :: (toString id).toList)) := by
  simp [make]

lemma parse_make {host : String} {servicePort managementPort id : ℤ}
    (free : ':' ∉ host.toList) (service : InInt32 servicePort)
    (management : InInt32 managementPort) (index : InInt32 id) :
    parse (make host servicePort managementPort id) =
      .ok ⟨host, servicePort, managementPort, id⟩ := by
  unfold parse
  rw [toList_make]
  simp only [getline_of_mem free, getline_of_mem (colon_not_mem_toString _),
    getline_last (colon_not_mem_toString _), String.ofList_toList,
    L2Operation.stoi_toString service.1 service.2,
    L2Operation.stoi_toString management.1 management.2,
    L2Operation.stoi_toString index.1 index.2]

lemma host_free {name : String} {bid : BlockId} (read : parse name = .ok bid) :
    ':' ∉ bid.host.toList := by
  unfold parse at read
  dsimp only at read
  split at read
  · obtain rfl := Except.ok.inj read
    rw [String.toList_ofList]
    exact not_mem_getline _
  · simp at read

end BlockIdParser

open BlockIdParser HostRow

/-- Host names of the hosts file have no space. The names made for the workers of such a host are
read back, and connected to, exactly when its host name has no colon either. -/
theorem block_name_round_trip_iff {lines : List String} {h : HostRow} (loaded : h ∈ (load lines).1)
    {i : ℤ} (index : InInt32 i) (port : InInt32 (h.port + i)) :
    ' ' ∉ h.hostname.toList ∧
    ((parse (make h.hostname (h.port + i) (h.port + i) i) =
        .ok ⟨h.hostname, h.port + i, h.port + i, i⟩ ∧
      nextChainModuleReset (make h.hostname (h.port + i) (h.port + i) i) =
        .ok (some (h.hostname, h.port + i, i))) ↔
    ':' ∉ h.hostname.toList) := by
  refine ⟨hostname_free loaded, ?_⟩
  constructor
  · rintro ⟨read, -⟩
    exact host_free read
  · intro free
    have read := parse_make free port port index
    refine ⟨read, ?_⟩
    have named : make h.hostname (h.port + i) (h.port + i) i ≠ "nil" := by
      intro same
      have colon : ':' ∈ (make h.hostname (h.port + i) (h.port + i) i).toList := by
        simp [toList_make]
      rw [same] at colon
      exact absurd colon (by decide)
    rw [nextChainModuleReset, if_neg named, read]
    rfl

/-- A host with an address of version 6, and one with a plain name. -/
def hostLines : List String := ["l1a L1 fe80::1 9000 0 0 1", "l2a L2 host1 9000 0 0 1"]

theorem block_name_split_early :
    (⟨"l1a", .l1, "fe80::1", 9000, 0, 0, 1⟩ : HostRow) ∈ (load hostLines).1 ∧
      (parse (make "fe80::1" 9000 9000 0)).toOption = none := by
  decide +kernel

theorem block_name_round_trip_host1 :
    nextChainModuleReset (make "host1" 9000 9000 0) = .ok (some ("host1", 9000, 0)) :=
  ((@block_name_round_trip_iff hostLines ⟨"l2a", .l2, "host1", 9000, 0, 0, 1⟩
    (by decide +kernel) 0 ⟨by decide, by decide⟩ ⟨by decide, by decide⟩).2.mpr (by decide)).2

end Shortstack
