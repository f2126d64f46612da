import AliSql.Lib.IntervalList
import AliSql.Gtid.Interval
import AliSql.Gtid.Memory
import AliSql.Libc.Basic
import AliSql.Gtid.Sid
import AliSql.Gtid.Set
import AliSql.Gtid.Text
import AliSql.Gtid.ToString
import AliSql.Lib.Bytes
import AliSql.Gtid.Encoding
import AliSql.Gtid.Run
import AliSql.Gtid.State
import AliSql.Gtid.Query
import AliSql.Lib.Radix
import AliSql.Include.Myisampack
import AliSql.Time.Packed
import AliSql.Lib.Machine
import AliSql.Sequence.Cache
import AliSql.Sequence.Counter
import AliSql.Filter.Lists
import AliSql.Filter.Admission
import AliSql.Decimal.Bin
import AliSql.Mysys.Base64
import AliSql.Mysys.Base64Decode
import AliSql.Lib.Heap
import AliSql.Lib.RedBlack
import AliSql.Mysys.Queues
import AliSql.Mysys.Tree
import AliSql.Mysys.TreeRuns
import AliSql.Decimal.Arith
import AliSql.Decimal.Round
import AliSql.Decimal.Convert
import AliSql.Decimal.Parse
import AliSql.Innobase.Mach
import AliSql.Innobase.Trx
import AliSql.Innobase.Log
import AliSql.Sql.BoundedQueue
import AliSql.Sql.EventQueue
import AliSql.Time.Daynr
import AliSql.Time.Interval
import AliSql.Time.DateAdd
import AliSql.Time.StrToDatetime
import AliSql.Rpl.Record
import AliSql.Rpl.Field
import AliSql.Strings.CtypeUtf8
import AliSql.Strings.Strtoll10
import AliSql.Lib.Links
import AliSql.Lib.LinearHash
import AliSql.Mysys.Hash
import AliSql.Mysys.HashInsert
import AliSql.Mysys.HashDelete
import AliSql.Mysys.HashUpdate
import AliSql.Mysys.HashRuns
import AliSql.Innobase.Purge
import AliSql.Time.TimeToStr
