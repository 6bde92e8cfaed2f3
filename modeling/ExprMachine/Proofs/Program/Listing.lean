import ExprMachine.Program.Listing
import ExprMachine.Proofs.Lines
import Mathlib.Data.List.Nodup
import Mathlib.Data.Option.Basic

/-! # Listings are unambiguous

A listing tells the code of a program and how long its pool is. Of the constants in the
pool it tells nothing else. -/

namespace ExprMachine

namespace Instr

def all : List Instr :=
  [.readConstant .u64, .arith .add .u64, .arith .sub .u64, .arith .mul .u64,
    .arith .div .u64, .print .none, .print .u64]

theorem mem_all (instr : Instr) : instr ∈ all := by
  rcases instr with ⟨⟨⟩⟩ | ⟨⟨⟩, ⟨⟩⟩ | ⟨⟨⟩⟩ <;> decide

theorem map_name_all :
    all.map name = ["ReadConstant<u64>", "Add<u64>", "Sub<u64>", "Mul<u64>", "Div<u64>",
      "Print<none>", "Print<u64>"] := rfl

theorem name_injective : Function.Injective name := by
  intro first second same
  have distinct : (all.map name).Nodup := by decide
  exact List.inj_on_of_nodup_map distinct (mem_all first) (mem_all second) same

theorem oneLine_name (instr : Instr) : OneLine instr.name := by
  have each : ∀ text ∈ all.map name, OneLine text := by
    rw [map_name_all]
    simp [oneLine_iff]
  exact each _ (List.mem_map_of_mem (mem_all instr))

end Instr

namespace Program

def heading (poolLength : Nat) : String :=
  "; " ++ toString poolLength ++ " constant bytes"

def numbered (index : Nat) (instr : Instr) : String :=
  lineNumber index ++ " " ++ instr.name

theorem mapIdx_listingLine (code : List Instr) :
    code.mapIdx listingLine = (code.mapIdx numbered).map (· ++ "\n") := by
  rw [List.mapIdx_eq_iff]
  intro index
  rw [List.getElem?_map, List.getElem?_mapIdx, Option.map_map]
  rfl

theorem listing_eq_unlines (program : Program) :
    program.listing =
      unlines (heading program.pool.length :: program.code.toList.mapIdx numbered) := by
  have ending : " constant bytes\n" = " constant bytes" ++ "\n" := rfl
  rw [listing, mapIdx_listingLine, unlines, List.map_cons, String.join_cons, heading, ending,
    ← String.append_assoc]

theorem oneLine_heading (poolLength : Nat) : OneLine (heading poolLength) := by
  have before : OneLine "; " := by simp [oneLine_iff]
  have after : OneLine " constant bytes" := by simp [oneLine_iff]
  exact oneLine_append_iff.mpr
    ⟨oneLine_append_iff.mpr ⟨before, oneLine_toString poolLength⟩, after⟩

theorem heading_injective : Function.Injective heading := by
  intro first second same
  rw [heading, heading, String.append_left_inj, String.append_right_inj] at same
  exact toString_injective same

theorem oneLine_lineNumber (index : Nat) : OneLine (lineNumber index) := by
  have zeros (count : Nat) : OneLine (String.ofList (List.replicate count '0')) := by
    intro char member
    rw [String.toList_ofList] at member
    rw [List.eq_of_mem_replicate member]
    decide
  exact oneLine_append_iff.mpr ⟨zeros _, oneLine_toString index⟩

theorem oneLine_numbered (index : Nat) (instr : Instr) : OneLine (numbered index instr) := by
  have blank : OneLine " " := by simp [oneLine_iff]
  exact oneLine_append_iff.mpr
    ⟨oneLine_append_iff.mpr ⟨oneLine_lineNumber index, blank⟩, instr.oneLine_name⟩

theorem numbered_injective (index : Nat) : Function.Injective (numbered index) := by
  intro first second same
  exact Instr.name_injective ((String.append_right_inj _).mp same)

/-- Lines are compared with lines of the same number, however wide the numbers are. -/
theorem mapIdx_numbered_injective : Function.Injective (List.mapIdx numbered) := by
  intro code other same
  apply List.ext_getElem?
  intro index
  have line := congrArg (·[index]?) same
  simp only [List.getElem?_mapIdx] at line
  exact Option.map_injective (numbered_injective index) line

theorem oneLine_of_mem_lines {program : Program} {line : String}
    (member : line ∈ heading program.pool.length :: program.code.toList.mapIdx numbered) :
    OneLine line := by
  rcases List.mem_cons.mp member with rfl | member
  · exact oneLine_heading program.pool.length
  · rcases List.mem_mapIdx.mp member with ⟨index, inside, rfl⟩
    exact oneLine_numbered index _

theorem listing_eq_listing_iff {program other : Program} :
    program.listing = other.listing ↔
      program.code = other.code ∧ program.pool.length = other.pool.length := by
  constructor
  · intro same
    rw [listing_eq_unlines, listing_eq_unlines] at same
    have lines := eq_of_unlines_eq
      (fun line member => (oneLine_of_mem_lines member).not_mem_newline)
      (fun line member => (oneLine_of_mem_lines member).not_mem_newline) same
    rw [List.cons.injEq] at lines
    exact ⟨Array.toList_inj.mp (mapIdx_numbered_injective lines.2),
      heading_injective lines.1⟩
  · rintro ⟨code, poolLength⟩
    rw [listing, listing, code, poolLength]

end Program

end ExprMachine
