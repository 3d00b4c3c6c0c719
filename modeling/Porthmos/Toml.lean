import Mathlib.Algebra.Group.Int.Defs
import Mathlib.Algebra.Group.Nat.Defs
import Mathlib.Data.Countable.Basic
import Mathlib.Logic.Equiv.List
import Mathlib.Tactic.DeriveCountable

/-!
# Documents of tables

What a document says: texts, whole numbers, lists and tables.  Whoever reads and writes the text of
documents is a parameter, and `Documented` is what it promises.
-/

/-- The fields of a table are in the order of their keys. -/
inductive Toml
  | text (value : String)
  | number (value : Int)
  | list (items : List Toml)
  | table (fields : List (String × Toml))
  deriving Repr

namespace Toml

/-- Numbers are signed and have 64 bits. -/
inductive Writable : Toml → Prop
  | text (value : String) : Writable (.text value)
  | number {value : Int} (lower : -(2 ^ 63) ≤ value) (upper : value < 2 ^ 63) :
      Writable (.number value)
  | list {items : List Toml} (all : ∀ item ∈ items, Writable item) : Writable (.list items)
  | table {fields : List (String × Toml)} (sorted : (fields.map Prod.fst).Pairwise (· < ·))
      (all : ∀ field ∈ fields, Writable field.2) : Writable (.table fields)

theorem writable_number {value : Int} :
    (number value).Writable ↔ -(2 ^ 63) ≤ value ∧ value < 2 ^ 63 := by
  constructor
  · intro writable
    cases writable with
    | number lower upper => exact ⟨lower, upper⟩
  · rintro ⟨lower, upper⟩
    exact .number lower upper

theorem writable_nat {value : Nat} : (number value).Writable ↔ value < 2 ^ 63 := by
  rw [writable_number]
  omega

theorem writable_list {items : List Toml} :
    (list items).Writable ↔ ∀ item ∈ items, item.Writable := by
  constructor
  · intro writable
    cases writable with
    | list all => exact all
  · exact .list

theorem writable_table {fields : List (String × Toml)} :
    (table fields).Writable ↔ (fields.map Prod.fst).Pairwise (· < ·) ∧
      ∀ field ∈ fields, field.2.Writable := by
  constructor
  · intro writable
    cases writable with
    | table sorted all => exact ⟨sorted, all⟩
  · rintro ⟨sorted, all⟩
    exact .table sorted all

def field (name : String) : Toml → Option Toml
  | .table fields => fields.lookup name
  | _ => none

def asText : Toml → Option String
  | .text value => some value
  | _ => none

/-- A number that is none of the negative ones. -/
def asNat : Toml → Option Nat
  | .number value => if 0 ≤ value then some value.toNat else none
  | _ => none

def asList : Toml → Option (List Toml)
  | .list items => some items
  | _ => none

def asTable : Toml → Option (List (String × Toml))
  | .table fields => some fields
  | _ => none

def asTexts (value : Toml) : Option (List String) := value.asList.bind (List.mapM asText)

/-- A number that has 16 bits. -/
def asPort (value : Toml) : Option Nat := value.asNat.filter fun port => port < 65536

@[simp]
theorem asNat_number (value : Nat) : (number value).asNat = some value := by
  simp [asNat]

end Toml

/-- Who reads and writes documents, with the texts of its errors. -/
structure TomlCrate where
  render : Toml → Except String String
  parse : String → Except String Toml

/-- Tables are written if everything in them can be, and are read as they were written. -/
structure TomlCrate.Documented (crate : TomlCrate) : Prop where
  renders : ∀ fields, (∃ text, crate.render (.table fields) = .ok text) ↔
    (Toml.table fields).Writable
  parses : ∀ value text, crate.render value = .ok text → crate.parse text = .ok value

/-! ### One that is as documented -/

namespace Toml

inductive Token
  | text (value : String)
  | number (value : Int)
  | list (length : Nat)
  | table (keys : List String)

mutual

/-- A value in front of its parts. -/
def tokens : Toml → List Token
  | .text value => [.text value]
  | .number value => [.number value]
  | .list items => .list items.length :: itemTokens items
  | .table fields => .table (fields.map Prod.fst) :: fieldTokens fields

def itemTokens : List Toml → List Token
  | [] => []
  | item :: items => tokens item ++ itemTokens items

def fieldTokens : List (String × Toml) → List Token
  | [] => []
  | (_, value) :: fields => tokens value ++ fieldTokens fields

end

/-- Put a value together from the values that have been read. -/
def assemble : Token → List Toml → List Toml
  | .text value, values => .text value :: values
  | .number value, values => .number value :: values
  | .list length, values => .list (values.take length) :: values.drop length
  | .table keys, values => .table (keys.zip values) :: values.drop keys.length

mutual

theorem assemble_tokens (value : Toml) (values : List Toml) :
    (tokens value).foldr assemble values = value :: values := by
  cases value with
  | text | number => rfl
  | list items => simp [tokens, assemble, assemble_itemTokens items values]
  | table fields =>
    have keys : (fields.map Prod.fst).zip (fields.map Prod.snd ++ values) = fields := by
      induction fields with
      | nil => rfl
      | cons field fields ih => simp [ih]
    simp [tokens, assemble, assemble_fieldTokens fields values, keys]

theorem assemble_itemTokens (items values : List Toml) :
    (itemTokens items).foldr assemble values = items ++ values := by
  cases items with
  | nil => rfl
  | cons item items => simp [itemTokens, assemble_itemTokens items, assemble_tokens item]

theorem assemble_fieldTokens (fields : List (String × Toml)) (values : List Toml) :
    (fieldTokens fields).foldr assemble values = fields.map Prod.snd ++ values := by
  cases fields with
  | nil => rfl
  | cons field fields =>
    obtain ⟨key, value⟩ := field
    simp [fieldTokens, assemble_fieldTokens fields, assemble_tokens value]

end

theorem tokens_injective : Function.Injective tokens := by
  intro first second same
  have assembled := assemble_tokens first []
  rw [same, assemble_tokens second []] at assembled
  exact (List.cons.inj assembled).1.symm

instance : Countable Char := Function.Injective.countable fun _ _ => Char.toNat_inj.mp

instance : Countable String := Function.Injective.countable fun _ _ => String.toList_inj.mp

deriving instance Countable for Token

instance : Countable Toml := tokens_injective.countable

/-- A text for each value, of the letter x only. -/
noncomputable def code (value : Toml) : String :=
  String.ofList (List.replicate ((Countable.exists_injective_nat Toml).choose value) 'x')

theorem code_injective : Function.Injective code := by
  intro first second same
  have letters := congrArg (fun text => text.toList.length) same
  simp only [code, String.toList_ofList, List.length_replicate] at letters
  exact (Countable.exists_injective_nat Toml).choose_spec letters

end Toml

namespace TomlCrate

open Classical in
/-- One document has the given text, and the others have texts of the letter x. -/
noncomputable def writing (document : Toml) (written : String) : TomlCrate where
  render value :=
    if ¬value.Writable then .error "number out of range"
    else .ok (if value = document then written else value.code)
  parse text :=
    if text = written then .ok document
    else if known : ∃ value : Toml, value.Writable ∧ value.code = text then .ok known.choose
    else .error "expected a key"

theorem documented_writing (document : Toml) {written : String}
    (another : ∃ char ∈ written.toList, char ≠ 'x') : (writing document written).Documented := by
  have notCode (value : Toml) : value.code ≠ written := by
    obtain ⟨char, member, isAnother⟩ := another
    rintro rfl
    rw [Toml.code, String.toList_ofList] at member
    exact isAnother (List.eq_of_mem_replicate member)
  constructor
  · intro fields
    unfold writing
    dsimp only
    split_ifs with notWritable isDocument <;> simp_all
  · intro value text rendered
    unfold writing at rendered ⊢
    dsimp only at rendered ⊢
    split_ifs at rendered with notWritable isDocument
    · cases rendered
      rw [if_pos rfl, isDocument]
    · cases rendered
      have known : ∃ other : Toml, other.Writable ∧ other.code = value.code :=
        ⟨value, notWritable, rfl⟩
      rw [if_neg (notCode value), dif_pos known]
      exact congrArg Except.ok (Toml.code_injective known.choose_spec.2)

theorem writable_writing {document : Toml} (isWritable : document.Writable) {written text : String}
    {value : Toml} (isRead : (writing document written).parse text = .ok value) :
    value.Writable := by
  unfold writing at isRead
  dsimp only at isRead
  split_ifs at isRead with isWritten known
  · cases isRead
    exact isWritable
  · cases isRead
    exact known.choose_spec.1

end TomlCrate
