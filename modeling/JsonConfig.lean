import JsonConfig.Xml
import JsonConfig.Stream
import JsonConfig.Version
import JsonConfig.Scanf
import JsonConfig.Outputs
import JsonConfig.Kafka
import JsonConfig.Syslog
import JsonConfig.Params
import JsonConfig.Kept
import JsonConfig.Render
import JsonConfig.Order
