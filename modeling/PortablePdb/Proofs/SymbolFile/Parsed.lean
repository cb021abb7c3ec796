import PortablePdb.Proofs.Except
import PortablePdb.SymbolFile

/-!
# What a parsed file says of its bytes

A file that parses went through every stage, and each stage's answer is one of its fields.
-/

namespace PortablePdb.SymbolFile

structure ParsedFrom (data : ByteArray) (file : SymbolFile) : Prop where
  data_eq : file.data = data
  headers : (readHeaders data.size).run (Cursor.ofBytes data) =
    .ok (file.rootHeader, file.streamHeaders)
  pdbHeader : ((streamIn data file.streamHeaders .pdb).mapM fun bytes =>
    PdbStreamHeader.read.run (Cursor.ofBytes bytes)) = .ok file.pdbHeader
  index : ∃ heaps, heapsIn data file.streamHeaders = .ok heaps ∧
    file.index = .ofTables file.tables heaps
  tables : ∃ bytes, streamIn data file.streamHeaders .tables = some bytes ∧
    readTableStream.run (Cursor.ofBytes bytes) = .ok (file.tableHeader, file.tables)

theorem parse_eq_ok_iff {data : ByteArray} {file : SymbolFile} :
    parse data = .ok file ↔ ParsedFrom data file := by
  constructor
  · intro hparse
    unfold parse at hparse
    obtain ⟨⟨root, headers⟩, hheaders, hparse⟩ := Except.bind_eq_ok hparse
    obtain ⟨pdbHeader, hpdbHeader, hparse⟩ := Except.bind_eq_ok hparse
    obtain ⟨heaps, hheaps, hparse⟩ := Except.bind_eq_ok hparse
    cases hstream : streamIn data headers .tables with
    | none =>
        rw [hstream] at hparse
        cases hparse
    | some bytes =>
        rw [hstream] at hparse
        obtain ⟨⟨tableHeader, tables⟩, htables, hparse⟩ := Except.bind_eq_ok hparse
        cases hparse
        exact ⟨rfl, hheaders, hpdbHeader, ⟨heaps, hheaps, rfl⟩, ⟨bytes, hstream, htables⟩⟩
  · rintro ⟨rfl, hheaders, hpdbHeader, ⟨heaps, hheaps, hindex⟩, ⟨bytes, hstream, htables⟩⟩
    unfold parse
    simp only [bind, Except.bind, hheaders, hpdbHeader, hheaps, hstream, htables, ← hindex]
    rfl

theorem exists_parse_of_any {data : ByteArray} (check : SymbolFile → Bool)
    (hcheck : (parse data).toOption.any check = true) :
    ∃ file, parse data = .ok file ∧ check file = true := by
  cases hparse : parse data with
  | ok file =>
      rw [hparse] at hcheck
      exact ⟨file, rfl, hcheck⟩
  | error error =>
      rw [hparse] at hcheck
      cases hcheck

end PortablePdb.SymbolFile
