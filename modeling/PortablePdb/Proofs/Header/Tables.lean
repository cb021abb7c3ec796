import PortablePdb.Header.PdbStream
import PortablePdb.Proofs.Header.RowCounts

/-!
# Headers with row counts read back

The headers of the `#Pdb` and `#~` streams are fixed fields followed by row counts.
-/

namespace PortablePdb

open Reader

theorem TableStreamHeader.reads_read {rows : RowCounts} {heapSizes : Nat} (hfits : rows.Fits)
    (hheapSizes : heapSizes < 256) :
    Reads TableStreamHeader.read
      (Bytes.toLittleEndian 4 0 ++ [2, 0, UInt8.ofNat heapSizes, 1] ++
        Bytes.toLittleEndian 8 (Builder.tableSet rows) ++
        Bytes.toLittleEndian 8 (Builder.tableSet rows) ++ Builder.writeRowCounts rows)
      { heapSizes
        valid := Builder.tableSet rows
        sorted := Builder.tableSet rows
        rows } := by
  have hset := RowCounts.tableSet_lt hfits
  have hfields : Bytes.toLittleEndian 4 0 ++ [2, 0, UInt8.ofNat heapSizes, 1] ++
      Bytes.toLittleEndian 8 (Builder.tableSet rows) ++
      Bytes.toLittleEndian 8 (Builder.tableSet rows) ++ Builder.writeRowCounts rows =
      Bytes.toLittleEndian 4 0 ++ ([UInt8.ofNat 2] ++ ([UInt8.ofNat 0] ++
        ([UInt8.ofNat heapSizes] ++ ([UInt8.ofNat 1] ++
          (Bytes.toLittleEndian 8 (Builder.tableSet rows) ++
            (Bytes.toLittleEndian 8 (Builder.tableSet rows) ++
              Builder.writeRowCounts rows)))))) := by
    simp
  rw [hfields]
  unfold TableStreamHeader.read
  refine (reads_littleEndian (by decide)).bind ?_
  rw [if_neg (by simp)]
  refine (reads_byte (by decide)).bind ?_
  refine (reads_byte (by decide)).bind ?_
  rw [if_neg (by simp [TableStreamHeader.majorVersion, TableStreamHeader.minorVersion])]
  refine (reads_byte hheapSizes).bind ?_
  refine (reads_byte (by decide)).bind ?_
  refine (reads_littleEndian hset).bind ?_
  refine (reads_littleEndian hset).bind ?_
  exact (RowCounts.reads_read hfits).bind_pure _

theorem PdbStreamHeader.reads_read {rows : RowCounts} {id : ByteArray} {entryPoint : Nat}
    (hfits : rows.Fits) (hid : id.size = 20) (hentryPoint : entryPoint < Bytes.limit 4) :
    Reads PdbStreamHeader.read
      (id.data.toList ++ Bytes.toLittleEndian 4 entryPoint ++
        Bytes.toLittleEndian 8 (Builder.tableSet rows) ++ Builder.writeRowCounts rows)
      { id, entryPoint, referencedTables := Builder.tableSet rows, referencedRows := rows } := by
  have hlength : id.data.toList.length = 20 := by simpa using hid
  have hreadsId := reads_bytes id.data.toList
  rw [hlength, toByteArray_toList] at hreadsId
  rw [List.append_assoc, List.append_assoc]
  unfold PdbStreamHeader.read
  refine hreadsId.bind ?_
  refine (reads_littleEndian hentryPoint).bind ?_
  refine (reads_littleEndian (RowCounts.tableSet_lt hfits)).bind ?_
  exact (RowCounts.reads_read hfits).bind_pure _

end PortablePdb
