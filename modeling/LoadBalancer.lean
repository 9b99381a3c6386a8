import LoadBalancer.Lib.Transition
import LoadBalancer.Lib.Search
import LoadBalancer.Lib.Path
import LoadBalancer.Lib.Handles
import LoadBalancer.Texto
import LoadBalancer.Socket
import LoadBalancer.Utilidades
import LoadBalancer.Balanceador
import LoadBalancer.Hilos
import LoadBalancer.Indices
import LoadBalancer.Carga
import LoadBalancer.Consola
import LoadBalancer.Restitucion
import LoadBalancer.Limite
import LoadBalancer.Solicitud
import LoadBalancer.InterpreteHTTP
import LoadBalancer.Rutas
import LoadBalancer.Cabeceras
import LoadBalancer.Estados
import LoadBalancer.Respuesta
import LoadBalancer.Cuerpo
import LoadBalancer.Head
import LoadBalancer.Bloques
import LoadBalancer.Arbol
import LoadBalancer.Extension
import LoadBalancer.Descarga
import LoadBalancer.Descriptores
import LoadBalancer.Fugas
import LoadBalancer.Lib.Registry
import LoadBalancer.Lib.Rotation
import LoadBalancer.Datagrama
import LoadBalancer.Registro
import LoadBalancer.Enlace
import LoadBalancer.Acuerdo
import LoadBalancer.Espera
import LoadBalancer.Vigilante
import LoadBalancer.Turnos
import LoadBalancer.MenorCarga
import LoadBalancer.Afinidad
import LoadBalancer.Alta
import LoadBalancer.Clientes
import LoadBalancer.Escucha
import LoadBalancer.Lib.Checked
import LoadBalancer.Accesos
import LoadBalancer.PeticionCliente
import LoadBalancer.Viaje
import LoadBalancer.Lib.Threads
import LoadBalancer.Lib.Token
import LoadBalancer.Lib.Monitor
import LoadBalancer.Bitacora
import LoadBalancer.NachOS.Lock
import LoadBalancer.NachOS.Mutex
import LoadBalancer.NachOS.MutexTurns
import LoadBalancer.NachOS.Barrier
import LoadBalancer.NachOS.Condition
import LoadBalancer.Lib.FirstFit
import LoadBalancer.Lib.RefCount
import LoadBalancer.NachOS.BitMap
import LoadBalancer.NachOS.OpenFilesTable
import LoadBalancer.Lib.Memory
import LoadBalancer.NachOS.Machine
import LoadBalancer.NachOS.SystemCalls
import LoadBalancer.NachOS.ClientStrings
import LoadBalancer.NachOS.ClientSearch
import LoadBalancer.NachOS.Client
import LoadBalancer.NachOS.AddrSpace
import LoadBalancer.NachOS.Frames
import LoadBalancer.NachOS.Loader
import LoadBalancer.NachOS.Duplicate
import LoadBalancer.NachOS.Copy
import LoadBalancer.NachOS.Sizes
import LoadBalancer.NachOS.Notify
import LoadBalancer.NachOS.Console
import LoadBalancer.Lib.DoubleWord
import LoadBalancer.NachOS.Instruction
import LoadBalancer.NachOS.MipsSim
import LoadBalancer.Lib.Lockstep
import LoadBalancer.NachOS.PlainMemory
import LoadBalancer.NachOS.Isolation
import LoadBalancer.NachOS.LoadDelay
import LoadBalancer.NachOS.UserRun
import LoadBalancer.NachOS.Multiplication
import LoadBalancer.NachOS.Arithmetic
import LoadBalancer.Lib.Agenda
import LoadBalancer.Lib.Chain
import LoadBalancer.NachOS.LinkedList
import LoadBalancer.NachOS.Interrupt
import LoadBalancer.Lib.Events
import LoadBalancer.NachOS.Scheduler
import LoadBalancer.NachOS.Dispatch
import LoadBalancer.Lib.Blocks
import LoadBalancer.NachOS.FileHeader
import LoadBalancer.NachOS.OpenFile
import LoadBalancer.NachOS.Directory
import LoadBalancer.NachOS.FileSystem
import LoadBalancer.NachOS.Store
import LoadBalancer.Lib.Mask
import LoadBalancer.Difusion
import LoadBalancer.Piezas
import LoadBalancer.Analisis
import LoadBalancer.Componentes
import LoadBalancer.Lib.Tree
import LoadBalancer.Carpetas
import LoadBalancer.Guardado
