import AccessGateway.Proofs.Access.Admission
import AccessGateway.Proofs.Text.Numerals
import AccessGateway.Proofs.Text.Pieces

/-!
# Blanks in role definitions

Roles are written one after the other with commas between them, each with a name and limits behind
colons.  Blanks may stand around a name and around each number.  A definition is trimmed as a whole
and so is each number, but what stands in front of the first colon is taken as it is: blanks there
become a part of the name.

## Results

* `RoleText.Limit.seconds?_eq` — the number of a limit, whatever blanks are around it.
* `RoleText.Definition.parse?_eq` — the role that is read of a definition.
* `role_list_read_iff` — the roles that are read of a list, and when they are those that are meant.
* `role_list_strays` — blanks in front of a colon that cost a session its role.
-/

set_option autoImplicit false

namespace AccessGateway

namespace RoleText

open Text

/-! ## Ways to write roles -/

/-- A row of blanks, which may be empty. -/
structure Blanks where
  chars : List Char
  blank : ∀ c ∈ chars, isBlank c = true
deriving DecidableEq

/-- The name of a role: it has no commas and no colons, and no blanks at its ends. -/
structure Name where
  chars : List Char
  ne_nil : chars ≠ []
  noMark : ',' ∉ chars ∧ ':' ∉ chars
  head : ∀ c, chars.head? = some c → isBlank c = false
  last : ∀ c, chars.getLast? = some c → isBlank c = false
deriving DecidableEq

/-- A number of seconds: a plus sign or none, and digits with any zeros in front. -/
structure Numeral where
  signed : Bool
  more : Nat
  value : Nat
  fits : value < 10 ^ (more + 1)
  word : value < UInt64.size
deriving DecidableEq

/-- What stands behind a colon: a number or none, with blanks around it. -/
structure Limit where
  before : Blanks
  number : Option Numeral
  after : Blanks
deriving DecidableEq

/-- A definition: a name, and behind colons its limits, the idle timeout first. -/
structure Definition where
  before : Blanks
  name : Name
  gap : Blanks
  limits : List Limit
deriving DecidableEq

/-- What stands between two commas: nothing but blanks, or a definition. -/
inductive Entry where
  | empty (blanks : Blanks)
  | definition (d : Definition)
deriving DecidableEq

def Numeral.chars (n : Numeral) : List Char :=
  (if n.signed then ['+'] else []) ++ digitsOf (n.more + 1) n.value

def Limit.chars (l : Limit) : List Char :=
  l.before.chars ++ (l.number.map Numeral.chars).getD [] ++ l.after.chars

/-- The seconds of a limit. -/
def Limit.value? (l : Limit) : Option Nat := l.number.map (·.value)

def Definition.chars (d : Definition) : List Char :=
  d.before.chars ++ d.name.chars ++ d.gap.chars ++ d.limits.flatMap fun l => ':' :: l.chars

def Entry.chars : Entry → List Char
  | .empty blanks => blanks.chars
  | .definition d => d.chars

/-- A list of roles as it is written, with commas between its entries. -/
def text (entries : List Entry) : String :=
  String.ofList ([','].intercalate (entries.map Entry.chars))

/-! ## The roles that are meant and those that are read -/

/-- A role with the limits of a definition. -/
def Definition.role (d : Definition) (name : List Char) (now : Instant) : Role :=
  { name := String.ofList name
    idleTimeout := d.limits[0]?.bind Limit.value?
    lifetime := d.limits[1]?.bind Limit.value?
    issuedAt := now
    lastUsed := now }

/-- The role that is meant. -/
def Definition.meant (d : Definition) (now : Instant) : Role := d.role d.name.chars now

/-- What is in front of the first colon once a definition is trimmed: blanks behind the name are
    trimmed off only if no colon follows. -/
def Definition.front (d : Definition) : List Char :=
  d.name.chars ++ if d.limits = [] then [] else d.gap.chars

/-- The role that is read: blanks between the name and a colon are a part of its name. -/
def Definition.read (d : Definition) (now : Instant) : Role := d.role d.front now

/-- No blanks are between the name and a colon. -/
def Definition.Tight (d : Definition) : Prop := d.gap.chars = [] ∨ d.limits = []

/-- The roles of a list, if `role` is that of a definition. -/
def roles (role : Definition → Role) (entries : List Entry) : List Role :=
  entries.filterMap fun
    | .empty _ => none
    | .definition d => some (role d)

variable {c mark : Char} {n : Numeral} {l : Limit} {d : Definition} {now : Instant}

/-! ## Numbers and limits -/

namespace Blanks

theorem notMem {b : Blanks} (h : isBlank mark = false) : mark ∉ b.chars := by
  intro hmem
  rw [b.blank mark hmem] at h
  cases h

theorem append (b more : Blanks) : ∀ c ∈ b.chars ++ more.chars, isBlank c = true := by
  intro c hc
  rcases List.mem_append.mp hc with hc | hc
  · exact b.blank c hc
  · exact more.blank c hc

end Blanks

namespace Numeral

theorem isBlank_of_mem (h : c ∈ n.chars) : isBlank c = false := by
  rcases List.mem_append.mp h with h | h
  · split at h
    · rw [List.mem_singleton.mp h]
      rfl
    · cases h
  · exact isBlank_of_isDigit (isDigit_of_mem_digitsOf h)

theorem notMem (hdigit : mark.isDigit = false) (hplus : mark ≠ '+') : mark ∉ n.chars := by
  intro h
  rcases List.mem_append.mp h with h | h
  · split at h
    · exact hplus (List.mem_singleton.mp h)
    · cases h
  · exact ne_of_isDigit (isDigit_of_mem_digitsOf h) hdigit rfl

theorem chars_ne_nil : n.chars ≠ [] := List.append_ne_nil_of_right_ne_nil _ (digitsOf_ne_nil _)

/-- The number is read from its digits, with or without the sign. -/
theorem word?_chars : word? UInt64.size n.chars = some n.value := by
  have hdigits := word?_digitsOf (Nat.succ_pos n.more) n.fits n.word
  unfold chars
  split
  · have hvalue : (digits? (digitsOf (n.more + 1) n.value)).filter (· < UInt64.size) =
        some n.value := by
      rw [digits?_digitsOf (Nat.succ_pos n.more) n.fits, Option.filter_some,
        if_pos (by simpa using n.word)]
    exact hvalue
  · exact hdigits

end Numeral

namespace Limit

theorem notMem (hblank : isBlank mark = false) (hdigit : mark.isDigit = false)
    (hplus : mark ≠ '+') : mark ∉ l.chars := by
  unfold chars
  cases l.number with
  | none => simp [Blanks.notMem hblank]
  | some n => simp [Blanks.notMem hblank, Numeral.notMem hdigit hplus]

/-- **Blanks around the number of a limit do not matter.** -/
theorem seconds?_eq : Role.seconds? l.chars = l.value? := by
  have hblank : ∀ c ∈ l.before.chars ++ l.after.chars, isBlank c = true :=
    l.before.append l.after
  unfold Role.seconds? chars value?
  cases l.number with
  | none =>
    rw [Option.map_none, Option.getD_none, List.append_nil, trim_blanks hblank]
    rfl
  | some n =>
    have htrim : trim (l.before.chars ++ n.chars ++ l.after.chars) = n.chars :=
      trim_around n.chars_ne_nil
        (fun c hc => n.isBlank_of_mem (List.mem_of_mem_head? hc))
        (fun c hc => n.isBlank_of_mem (List.mem_of_getLast? hc)) hblank
    rw [Option.map_some, Option.getD_some, htrim, Numeral.word?_chars]
    rfl

/-- A limit with its end trimmed is one that is written in another way. -/
theorem exists_trimEnd (l : Limit) :
    ∃ other : Limit, other.chars = trimEnd l.chars ∧ other.value? = l.value? := by
  let nothing : Blanks := ⟨[], nofun⟩
  cases hnumber : l.number with
  | none =>
    have hchars : l.chars = l.before.chars ++ l.after.chars := by
      simp [chars, hnumber]
    refine ⟨⟨nothing, none, nothing⟩, ?_, by simp [value?, hnumber]⟩
    rw [hchars]
    exact (trimEnd_append [] (l.before.append l.after)).symm
  | some n =>
    have hlast : ∀ c, (l.before.chars ++ n.chars).getLast? = some c → isBlank c = false := by
      intro c hc
      rw [List.getLast?_append_of_ne_nil _ n.chars_ne_nil] at hc
      exact n.isBlank_of_mem (List.mem_of_getLast? hc)
    refine ⟨⟨l.before, some n, nothing⟩, ?_, by simp [value?, hnumber]⟩
    simp only [chars, hnumber, Option.map_some, Option.getD_some]
    rw [trimEnd_append _ l.after.blank, trimEnd_eq_self hlast]
    exact List.append_nil _

end Limit

/-! ## Definitions -/

namespace Definition

theorem head?_front_append (d : Definition) (cs : List Char) :
    ∀ c, (d.name.chars ++ cs).head? = some c → isBlank c = false := by
  intro c hc
  obtain ⟨first, rest, hname⟩ := List.exists_cons_of_ne_nil d.name.ne_nil
  refine d.name.head c ?_
  rw [hname] at hc ⊢
  exact hc

/-- **A definition that is trimmed** starts with its name; its limits are the same. -/
theorem exists_trim (d : Definition) : ∃ limits : List Limit,
    trim d.chars = d.front ++ limits.flatMap (fun l => ':' :: l.chars) ∧
      limits.map Limit.value? = d.limits.map Limit.value? := by
  rcases List.eq_nil_or_concat d.limits with hnone | ⟨limits, l, hlimits⟩
  · refine ⟨[], ?_, by rw [hnone]⟩
    have htrim : trim (d.before.chars ++ d.name.chars ++ d.gap.chars) = d.name.chars :=
      trim_around d.name.ne_nil d.name.head d.name.last (d.before.append d.gap)
    simpa [chars, front, hnone] using htrim
  · -- A colon is no blank, so that the end is trimmed in the last limit alone.
    obtain ⟨other, hchars, hvalue⟩ := l.exists_trimEnd
    refine ⟨limits ++ [other], ?_, by simp [hlimits, hvalue]⟩
    have hne : d.limits ≠ [] := by
      rw [hlimits]
      simp
    have hwritten : d.chars = d.before.chars ++ (d.name.chars ++
        (d.gap.chars ++ limits.flatMap (fun l => ':' :: l.chars) ++ ':' :: l.chars)) := by
      simp [chars, hlimits]
    rw [hwritten, trim, trimStart_append _ d.before.blank,
      trimStart_eq_self (d.head?_front_append _), ← List.append_assoc,
      trimEnd_append_cons (by decide), ← hchars]
    simp [front, hne]

theorem notMem_front : ':' ∉ d.front := by
  unfold front
  split
  · simp [d.name.noMark.2]
  · have hgap : ':' ∉ d.gap.chars := Blanks.notMem (by decide)
    simp [d.name.noMark.2, hgap]

/-- **The role that is read of a definition.** -/
theorem parse?_eq (d : Definition) (now : Instant) :
    Role.parse? d.chars now = some (d.read now) := by
  obtain ⟨limits, htrim, hvalues⟩ := d.exists_trim
  have hpieces : ∀ piece ∈ d.front :: limits.map Limit.chars, ':' ∉ piece := by
    intro piece hpiece
    rcases List.mem_cons.mp hpiece with rfl | hpiece
    · exact notMem_front
    · obtain ⟨l, -, rfl⟩ := List.mem_map.mp hpiece
      exact Limit.notMem (by decide) (by decide) (by decide)
  have hfields : fields ':' (trim d.chars) = d.front :: limits.map Limit.chars := by
    rw [htrim, ← fields_join hpieces, List.flatMap_map]
  have hfront : d.front ≠ [] := List.append_ne_nil_of_left_ne_nil d.name.ne_nil _
  have hlimit : ∀ i : Nat, ((limits.map Limit.chars)[i]?).bind Role.seconds? =
      (d.limits[i]?).bind Limit.value? := by
    intro i
    have hvalue := congrArg (fun values => (values[i]?).bind id) hvalues
    simpa [Option.bind_map, Function.comp_def, Limit.seconds?_eq] using hvalue
  unfold Role.parse?
  rw [hfields]
  dsimp only
  rw [if_neg hfront, hlimit, hlimit]
  rfl

theorem read_eq_meant_iff : d.read now = d.meant now ↔ d.Tight := by
  unfold read front meant Tight role
  by_cases hlimits : d.limits = [] <;> simp [hlimits]

theorem notMem_chars : ',' ∉ d.chars := by
  have hlimits : ',' ∉ d.limits.flatMap fun l => ':' :: l.chars := by
    simp only [List.mem_flatMap, List.mem_cons, not_exists, not_and, not_or]
    exact fun l _ => ⟨by decide, Limit.notMem (by decide) (by decide) (by decide)⟩
  have hblanks : ∀ b : Blanks, ',' ∉ b.chars := fun b => Blanks.notMem (by decide)
  simp [chars, hlimits, hblanks, d.name.noMark.1]

end Definition

/-! ## Lists -/

variable {entries : List Entry}

theorem Entry.notMem_chars (e : Entry) : ',' ∉ e.chars := by
  cases e with
  | empty blanks => exact Blanks.notMem (by decide)
  | definition d => exact Definition.notMem_chars

/-- **The roles that are read of a list**, one for each definition and in their order. -/
theorem parseList_text (entries : List Entry) (now : Instant) :
    Role.parseList (text entries) now = roles (·.read now) entries := by
  have hempty : ∀ b : Blanks, Role.parse? b.chars now = none := by
    intro b
    unfold Role.parse?
    rw [trim_blanks b.blank]
    rfl
  cases entries with
  | nil => rfl
  | cons e entries =>
    have hfields : fields ',' (text (e :: entries)).toList = (e :: entries).map Entry.chars := by
      rw [text, String.toList_ofList]
      apply fields_intercalate (by simp)
      intro piece hpiece
      obtain ⟨entry, -, rfl⟩ := List.mem_map.mp hpiece
      exact entry.notMem_chars
    unfold Role.parseList roles
    rw [hfields, List.filterMap_map]
    apply List.filterMap_congr
    intro entry _
    cases entry with
    | empty blanks => exact hempty blanks
    | definition d => exact d.parse?_eq now

/-- **When they are the roles that are meant.** -/
theorem roles_eq_iff : roles (·.read now) entries = roles (·.meant now) entries ↔
    ∀ d, .definition d ∈ entries → d.Tight := by
  induction entries with
  | nil => simp [roles]
  | cons e entries ih =>
    unfold roles at ih ⊢
    cases e with
    | empty blanks => simp [ih]
    | definition d => simp [ih, Definition.read_eq_meant_iff]

/-! ## What a role is good for -/

/-- A name with blanks behind it is none that has no blanks at its ends. -/
theorem name_read_mem {required : List String} (h : ∀ role ∈ required, trimmed role = role) :
    (d.read now).name ∈ required ↔ d.Tight ∧ (d.meant now).name ∈ required := by
  by_cases htight : d.Tight
  · rw [Definition.read_eq_meant_iff.mpr htight, and_iff_right htight]
  · refine iff_of_false (fun hmem => ?_) fun hboth => htight hboth.1
    unfold Definition.Tight at htight
    rw [not_or] at htight
    have hname : (d.read now).name = String.ofList (d.name.chars ++ d.gap.chars) := by
      unfold Definition.read Definition.front
      rw [if_neg htight.2]
      rfl
    have htrim : trim ([] ++ d.name.chars ++ d.gap.chars) = d.name.chars :=
      trim_around d.name.ne_nil d.name.head d.name.last d.gap.blank
    rw [List.nil_append] at htrim
    have hsame := h _ hmem
    rw [hname, trimmed, String.toList_ofList, htrim, String.ofList_inj] at hsame
    exact htight.1 (List.append_right_eq_self.mp hsame.symm)

end RoleText

/-- A session that is granted one role opens what this role opens. -/
theorem Mapping.openTo_addRoles {m : Mapping} {s : Session} {r : Role} {now : Instant}
    (hs : s.roles = []) (hrequired : m.requiredRoles ≠ []) :
    m.OpenTo (s.addRoles [r]) now ↔ r.isActive now = true ∧ r.name ∈ m.requiredRoles := by
  have hroles : (s.addRoles [r]).roles = [r] := by
    simp [Session.addRoles, Session.addRole, hs]
  unfold OpenTo Session.HoldsAny
  rw [or_iff_right hrequired, hroles]
  simp

/-- **When blanks in a list of roles do not matter.**  Whatever blanks are written around names and
    numbers, and whatever entries are left empty, a list is read as one role for each definition, in
    their order, with the limits that are meant; its name is the one that is meant and behind it the
    blanks in front of the first colon.  So the roles are those that are meant exactly if no
    definition has such blanks.  A role that is written with them opens no mapping that asks for
    names without blanks at their ends; any other opens what the role opens that is meant. -/
theorem role_list_read_iff (entries : List RoleText.Entry) (now : Instant) :
    let read := Role.parseList (RoleText.text entries) now
    read = RoleText.roles (·.read now) entries ∧
    (read = RoleText.roles (·.meant now) entries ↔ ∀ d, .definition d ∈ entries → d.Tight) ∧
    ∀ (d : RoleText.Definition) (m : Mapping) (s : Session), s.roles = [] →
      m.requiredRoles ≠ [] → (∀ role ∈ m.requiredRoles, Text.trimmed role = role) →
      let granted := s.addRoles (Role.parseList (RoleText.text [.definition d]) now)
      ((m.checkRoles granted now).2 = true ↔
        d.Tight ∧ (m.checkRoles (s.addRoles [d.meant now]) now).2 = true) := by
  intro read
  have hread : read = RoleText.roles (·.read now) entries := RoleText.parseList_text entries now
  refine ⟨hread, ?_, ?_⟩
  · rw [hread]
    exact RoleText.roles_eq_iff
  · intro d m s hs hrequired htrimmed granted
    have hgranted : granted = s.addRoles [d.read now] :=
      congrArg s.addRoles (RoleText.parseList_text [.definition d] now)
    have hactive : (d.read now).isActive now = (d.meant now).isActive now := rfl
    rw [hgranted, Mapping.checkRoles_eq_true, Mapping.checkRoles_eq_true,
      Mapping.openTo_addRoles hs hrequired, Mapping.openTo_addRoles hs hrequired, hactive,
      RoleText.name_read_mem htrimmed]
    exact and_left_comm

/-! ## An administrator -/

/-- A row of spaces. -/
def RoleText.spaces (n : Nat) : RoleText.Blanks :=
  ⟨List.replicate n ' ', fun _ hc => (List.eq_of_mem_replicate hc).symm ▸ rfl⟩

/-- The name of an administrator. -/
def SampleRoles.name : RoleText.Name where
  chars := "admin".toList
  ne_nil := by decide
  noMark := by decide
  head := fun _ hc => Option.some.inj (hc : some 'a' = some _) ▸ rfl
  last := fun _ hc => Option.some.inj (hc : some 'n' = some _) ▸ rfl

/-- An administrator for half a minute, with spaces in front of the colon and around the number. -/
def SampleRoles.admin (gap around : Nat) : RoleText.Definition where
  before := RoleText.spaces around
  name := SampleRoles.name
  gap := RoleText.spaces gap
  limits := [⟨RoleText.spaces around, some ⟨false, 1, 30, by decide, by decide⟩,
    RoleText.spaces around⟩]

/-- A part of the site for administrators. -/
def SampleRoles.mapping : Mapping := { Mapping.denyAll with requiredRoles := ["admin"] }

/-- Spaces around the name as a whole and around the number, and an entry of spaces alone. -/
theorem role_list_read_iff_spaced :
    let d := SampleRoles.admin 0 1
    let entries : List RoleText.Entry := [.empty (RoleText.spaces 2), .definition d]
    RoleText.text entries = "  , admin: 30 " ∧
    Role.parseList (RoleText.text entries) 0 = [⟨"admin", some 30, none, 0, 0⟩] ∧
    (SampleRoles.mapping.checkRoles
      (Session.fresh.addRoles (Role.parseList (RoleText.text [.definition d]) 0)) 0).2 = true := by
  intro d entries
  obtain ⟨-, hlist, hopens⟩ := role_list_read_iff entries 0
  have htight : ∀ d, .definition d ∈ entries → d.Tight := by
    intro other hother
    have hsame : other = d := by simpa [entries] using hother
    exact hsame ▸ .inl rfl
  refine ⟨by decide, hlist.mpr htight, ?_⟩
  exact (hopens d SampleRoles.mapping .fresh rfl (by decide) (by decide)).mpr
    ⟨.inl rfl, by decide⟩

/-- A space in front of the colon goes into the name, and the role does not open the mapping that
    the one that is meant opens. -/
theorem role_list_strays :
    let d := SampleRoles.admin 1 0
    RoleText.text [.definition d] = "admin :30" ∧
    d.meant 0 = ⟨"admin", some 30, none, 0, 0⟩ ∧
    Role.parseList "admin :30" 0 = [⟨"admin ", some 30, none, 0, 0⟩] ∧
    (SampleRoles.mapping.checkRoles (Session.fresh.addRoles [d.meant 0]) 0).2 = true ∧
    (SampleRoles.mapping.checkRoles
      (Session.fresh.addRoles (Role.parseList "admin :30" 0)) 0).2 = false := by
  decide +kernel

end AccessGateway
