import RiscvOvpsim.Basic
import RiscvOvpsim.Lib.StepSystem
import RiscvOvpsim.Lib.Bits
import RiscvOvpsim.Lib.ArgMax
import RiscvOvpsim.Lib.BitField
import RiscvOvpsim.Lib.BitScan
import RiscvOvpsim.Lib.Bitmap
import RiscvOvpsim.Lib.BitPerm
import RiscvOvpsim.Lib.BitLoop
import RiscvOvpsim.Lib.Roundoff
import RiscvOvpsim.Lib.UpperBits
import RiscvOvpsim.Lib.Concat
import RiscvOvpsim.Pmp.Entry
import RiscvOvpsim.Pmp.Update
import RiscvOvpsim.Pmp.Legal
import RiscvOvpsim.Pmp.Cache
import RiscvOvpsim.Pmp.Region
import RiscvOvpsim.Hart.State
import RiscvOvpsim.Hart.Trap
import RiscvOvpsim.Hart.Mprv
import RiscvOvpsim.Hart.RoundTrip
import RiscvOvpsim.Hart.Counters
import RiscvOvpsim.Interrupt.Csr
import RiscvOvpsim.Interrupt.Arbiter
import RiscvOvpsim.Vm.PageWalk
import RiscvOvpsim.Vm.Translate
import RiscvOvpsim.Vm.Miss
import RiscvOvpsim.Vm.Tlb
import RiscvOvpsim.Vm.Coherence
import RiscvOvpsim.Clic.Registers
import RiscvOvpsim.Clic.Write
import RiscvOvpsim.Clic.Map
import RiscvOvpsim.Clic.Cache
import RiscvOvpsim.Clic.Select
import RiscvOvpsim.Clic.Csr
import RiscvOvpsim.Interrupt.Wfi
import RiscvOvpsim.Bext.Perm
import RiscvOvpsim.Bext.Deposit
import RiscvOvpsim.Bext.Matrix
import RiscvOvpsim.Bext.Funnel
import RiscvOvpsim.Bext.Crc
import RiscvOvpsim.Bext.Place
import RiscvOvpsim.Vector.FixedPoint
import RiscvOvpsim.Vector.SetVL
import RiscvOvpsim.Fp.NaNBox
import RiscvOvpsim.Fp.Csr
import RiscvOvpsim.Fp.Rounding
import RiscvOvpsim.Hart.Exclusive
