import Stm32F4.Lib.Run
import Stm32F4.Lib.Cells
import Stm32F4.Lib.PingPong
import Stm32F4.Lib.Layout
import Stm32F4.Lib.Copy
import Stm32F4.Lib.Bursts
import Stm32F4.Lib.Blocks
import Stm32F4.Lib.Limbs
import Stm32F4.Lib.Slots
import Stm32F4.Lib.Down
import Stm32F4.Lib.Signed
import Stm32F4.Lib.Codec
import Stm32F4.Lib.Fifo
import Stm32F4.Lib.Scan
import Stm32F4.Lib.Smoothing
import Stm32F4.Hal.Dma
import Stm32F4.Hal.Uart
import Stm32F4.Hal.Reception
import Stm32F4.Hal.Transmission
import Stm32F4.Hal.Eth
import Stm32F4.Usart.Port
import Stm32F4.Usart.World
import Stm32F4.Usart.Window
import Stm32F4.Usart.Invariant
import Stm32F4.Usart.Clean
import Stm32F4.Usart.Delivery
import Stm32F4.Usart.Stranded
import Stm32F4.Usart.Rearm
import Stm32F4.Usart.Recovery
import Stm32F4.Usart.Transmit
import Stm32F4.Usart.Callback
import Stm32F4.Usart.Senders
import Stm32F4.Usart.Statements
import Stm32F4.Usart.Echo
import Stm32F4.Usart.Refill
import Stm32F4.Usart.ByteWise
import Stm32F4.Memory.Malloc
import Stm32F4.Memory.Heap
import Stm32F4.Memory.Allocation
import Stm32F4.Memory.Realloc
import Stm32F4.Memory.Startup
import Stm32F4.Ethernetif.Output
import Stm32F4.Ethernetif.Input
import Stm32F4.Ethernetif.Interrupt
import Stm32F4.Ethernetif.Segments
import Stm32F4.Ntp.Sntp
import Stm32F4.Ntp.Offset
import Stm32F4.Ntp.Client
import Stm32F4.Ntp.Stale
import Stm32F4.Ptp.Monitor
import Stm32F4.Ptp.Timer
import Stm32F4.Ptp.Datatypes
import Stm32F4.Ptp.Arith
import Stm32F4.Ptp.Msg
import Stm32F4.Ptp.Net
import Stm32F4.Ptp.Pcb
import Stm32F4.Ptp.Bmc
import Stm32F4.Ptp.Foreign
import Stm32F4.Ptp.World
import Stm32F4.Ptp.Servo
import Stm32F4.Ptp.Protocol
import Stm32F4.Ptp.Port
import Stm32F4.Ptp.Turn
import Stm32F4.Ptp.Safety
import Stm32F4.Ptp.MainLoop
import Stm32F4.Hal.Tim
import Stm32F4.Timer.Tick
import Stm32F4.System.Delay
